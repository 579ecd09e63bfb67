import Outline.Json.Basic

/-!
# Reading JSON

A reader for exactly the JSON grammar: no comments, no trailing commas, nothing behind the
value but blanks.

* `Json.stringBody?` — a string literal behind its opening quote, as characters and escaped
  UTF-16 units;
* `Json.denoted?` — the text of such parts: two units that form a surrogate pair are one
  character, any other half of a pair denotes nothing;
* `Json.number?` — a number literal;
* `Json.parse?` — the value that a text is.

A string need not denote a text, and neither need a name within a value, as it may never be asked for.
Every step of the readers for values lowers a fuel that starts above twice the length of the
text, and each reads a character within two steps.
-/

namespace Outline.Json

/-! ### Blanks and numbers -/

/-- The blanks of JSON. -/
def isSpace (c : Char) : Bool := c == ' ' || c == '\n' || c == '\t' || c == '\r'

def skipSpace (t : Text) : Text := t.dropWhile isSpace

def digits? (t : Text) : Option (Text × Text) :=
  let ds := t.takeWhile Char.isDigit
  if ds = [] then none else some (ds, t.dropWhile Char.isDigit)

/-- The whole part of a number: a zero, or digits that do not begin with one. -/
def whole? : Text → Option (Text × Text)
  | '0' :: r => some (['0'], r)
  | t => digits? t

/-- The part behind the point, if there is a point. -/
def fraction? : Text → Option (Text × Text)
  | '.' :: r => (digits? r).map fun (ds, r) => ('.' :: ds, r)
  | t => some ([], t)

/-- The sign of an exponent, if it has one. -/
def exponentSign : Text → Text × Text
  | '+' :: r => (['+'], r)
  | '-' :: r => (['-'], r)
  | t => ([], t)

/-- The exponent, if there is one. -/
def exponent? : Text → Option (Text × Text)
  | [] => some ([], [])
  | c :: r =>
    if c = 'e' ∨ c = 'E' then
      let (sign, r) := exponentSign r
      (digits? r).map fun (ds, r) => (c :: sign ++ ds, r)
    else some ([], c :: r)

/-- A number without its sign. -/
def unsigned? (t : Text) : Option (Text × Text) := do
  let (w, t) ← whole? t
  let (f, t) ← fraction? t
  let (e, t) ← exponent? t
  some (w ++ f ++ e, t)

def number? : Text → Option (Text × Text)
  | '-' :: r => (unsigned? r).map fun (n, r) => ('-' :: n, r)
  | t => unsigned? t

/-! ### Strings -/

/-- A part of a string literal. -/
inductive StringPart where
  | char (c : Char)
  /-- An escaped UTF-16 unit. -/
  | unit (n : Nat)

def hexDigit? (c : Char) : Option Nat :=
  if c.isDigit then some (c.toNat - '0'.toNat)
  else if 'a' ≤ c ∧ c ≤ 'f' then some (c.toNat - 'a'.toNat + 10)
  else if 'A' ≤ c ∧ c ≤ 'F' then some (c.toNat - 'A'.toNat + 10)
  else none

/-- The value of four hexadecimal digits. -/
def unit? (a b c d : Char) : Option Nat := do
  some (((((← hexDigit? a) * 16) + (← hexDigit? b)) * 16 + (← hexDigit? c)) * 16 + (← hexDigit? d))

/-- The character that a letter behind a backslash stands for. -/
def unescape? (c : Char) : Option Char :=
  if c = '"' ∨ c = '\\' ∨ c = '/' then some c
  else if c = 'b' then some '\x08'
  else if c = 'f' then some '\x0c'
  else if c = 'n' then some '\n'
  else if c = 'r' then some '\r'
  else if c = 't' then some '\t'
  else none

/-- The parts of a string literal up to its closing quote, and what follows. -/
def stringBody? : Text → Option (List StringPart × Text)
  | [] => none
  | '"' :: r => some ([], r)
  | '\\' :: 'u' :: a :: b :: c :: d :: r =>
    (unit? a b c d).bind fun n => (stringBody? r).map fun (ps, r) => (.unit n :: ps, r)
  | '\\' :: e :: r =>
    (unescape? e).bind fun c => (stringBody? r).map fun (ps, r) => (.char c :: ps, r)
  | c :: r =>
    if c.toNat < 0x20 then none else (stringBody? r).map fun (ps, r) => (.char c :: ps, r)

/-- The first half of a surrogate pair. -/
def isHigh (n : Nat) : Bool := 0xD800 ≤ n && n < 0xDC00

/-- The second half of a surrogate pair. -/
def isLow (n : Nat) : Bool := 0xDC00 ≤ n && n < 0xE000

/-- The character of a surrogate pair. -/
def pairChar (h l : Nat) : Char := Char.ofNat (0x10000 + (h - 0xD800) * 0x400 + (l - 0xDC00))

/-- The text that the parts of a literal denote. -/
def denoted? : List StringPart → Option Text
  | [] => some []
  | .char c :: ps => (denoted? ps).map (c :: ·)
  | .unit h :: .unit l :: ps =>
    if isHigh h && isLow l then (denoted? ps).map (pairChar h l :: ·)
    else if isHigh h || isLow h then none
    else (denoted? (.unit l :: ps)).map (Char.ofNat h :: ·)
  | .unit n :: ps => if isHigh n || isLow n then none else (denoted? ps).map (Char.ofNat n :: ·)

/-- The value of a string literal. -/
def ofParts (ps : List StringPart) : Json :=
  match denoted? ps with
  | some t => .string t
  | none => .brokenString

/-- A name, if it denotes a text, and what follows its closing quote. -/
def key? : Text → Option (Option Text × Text)
  | '"' :: r => (stringBody? r).map fun (ps, r) => (denoted? ps, r)
  | _ => none

/-! ### Values -/

/-- A value that is neither array nor object. -/
def scalar? (t : Text) : Option (Json × Text) :=
  match t with
  | '"' :: r => (stringBody? r).map fun (ps, r) => (ofParts ps, r)
  | 'n' :: _ => (Text.skip? "null".toList t).map fun r => (.null, r)
  | 't' :: _ => (Text.skip? "true".toList t).map fun r => (.bool true, r)
  | 'f' :: _ => (Text.skip? "false".toList t).map fun r => (.bool false, r)
  | _ => (number? t).map fun (n, r) => (.number n, r)

mutual

/-- A value at the start of a text, and what follows it. -/
def value? : (fuel : Nat) → Text → Option (Json × Text)
  | 0, _ => none
  | fuel + 1, t =>
    match skipSpace t with
    | '[' :: r =>
      match skipSpace r with
      | ']' :: r => some (.array [], r)
      | r => (items? fuel r).map fun (vs, r) => (.array vs, r)
    | '{' :: r =>
      match skipSpace r with
      | '}' :: r => some (.object [], r)
      | r => (members? fuel r).map fun (ms, r) => (ofMembers ms, r)
    | t => scalar? t

/-- One or more items and the bracket behind them. -/
def items? : (fuel : Nat) → Text → Option (List Json × Text)
  | 0, _ => none
  | fuel + 1, t =>
    match value? fuel t with
    | none => none
    | some (v, r) =>
      match skipSpace r with
      | ']' :: r => some ([v], r)
      | ',' :: r => (items? fuel r).map fun (vs, r) => (v :: vs, r)
      | _ => none

/-- One or more members and the brace behind them. -/
def members? : (fuel : Nat) → Text → Option (List (Option Text × Json) × Text)
  | 0, _ => none
  | fuel + 1, t =>
    match key? (skipSpace t) with
    | none => none
    | some (k, r) =>
      match skipSpace r with
      | ':' :: r =>
        match value? fuel r with
        | none => none
        | some (v, r) =>
          match skipSpace r with
          | '}' :: r => some ([(k, v)], r)
          | ',' :: r => (members? fuel r).map fun (ms, r) => ((k, v) :: ms, r)
          | _ => none
      | _ => none

end

/-- The value that a text is. -/
def parse? (t : Text) : Option Json :=
  match value? (2 * t.length + 2) t with
  | some (v, r) => if skipSpace r = [] then some v else none
  | none => none

end Outline.Json
