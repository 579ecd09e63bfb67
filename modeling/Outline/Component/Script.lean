import Outline.Text.Utf8
import Outline.Text.Word

/-!
# Scripts of components

What a scan finds in the script block of a single-file component, without parsing it.

* `Script.findWord?` — the first success of a test at a place where a word may begin;
* `Script.name?` — the string literal behind the first `name:` that is followed by one;
* `Script.methods` — every `name(…) {` that is neither a declaration with the word `function`
  nor control flow, with the byte offset of the name;
* `Script.isTyped` — whether the attributes of the block choose the typed script language.
-/

namespace Outline

/-- A method: its name, and the byte offset of the name in the script block. -/
structure Method where
  name : Text
  offset : Nat
deriving DecidableEq

namespace Script

/-! ### Words and literals -/

/-- The first success of `test` on the rest of the text at a place that does not follow a word
character. -/
def findWord? {α : Type} (test : Text → Option α) : (afterWord : Bool) → Text → Option α
  | _, [] => none
  | afterWord, c :: r =>
    match if afterWord then none else test (c :: r) with
    | some a => some a
    | none => findWord? test (isWord c) r

def isQuote (c : Char) : Bool := c == '"' || c == '\''

/-- What follows a mark, blanks around it left aside. -/
def skipMark? (mark : Char) (t : Text) : Option Text :=
  (Text.skip? [mark] (Text.trimStart t)).map Text.trimStart

/-- The text between a quote at the start and the next quote, if it is not empty. -/
def literal? : Text → Option Text
  | [] => none
  | q :: r =>
    if isQuote q then
      let inner := r.takeWhile fun c => !isQuote c
      if inner ≠ [] && inner.length < r.length then some inner else none
    else none

/-- The literal behind a `name:` at the start. -/
def nameHere? (t : Text) : Option Text :=
  (Text.skip? "name".toList t).bind fun r => (skipMark? ':' r).bind literal?

/-- The first name that a component's script gives. -/
def name? (script : Text) : Option Text := findWord? nameHere? false script

/-- Whether a literal at the start names the typed script language. -/
def typedLiteral (t : Text) : Bool :=
  match t with
  | q :: 't' :: 's' :: 'x' :: q' :: _ => isQuote q && isQuote q'
  | q :: 't' :: 's' :: q' :: _ => isQuote q && isQuote q'
  | _ => false

/-- Succeeds on a `lang` attribute at the start that names the typed script language. -/
def typedHere? (t : Text) : Option Unit :=
  (Text.skip? "lang".toList t).bind fun r => (skipMark? '=' r).bind fun r =>
    if typedLiteral r then some () else none

/-- Whether the attributes of a script block choose the typed script language. -/
def isTyped (attributes : Text) : Bool := (findWord? typedHere? false attributes).isSome

/-! ### Methods -/

/-- The words before a parenthesis that are no methods. -/
def controlWords : List Text :=
  ["if", "for", "while", "catch", "switch", "function"].map String.toList

def startsName (c : Char) : Bool := c.isAlpha || c == '_' || c == '$'

def continuesName (c : Char) : Bool := isWord c || c == '$'

def noParenthesis (c : Char) : Bool := c ≠ '(' && c ≠ ')'

/-- A name with a head behind it, at the start of a text: the name, the head from the blanks
before its parameter list to its brace, and what follows. -/
structure NamedHead where
  name : Text
  head : Text
  rest : Text

/-- A parameter list without inner parentheses and the brace behind it, with the blanks before
either, at the start of a text; and what follows. -/
def head? (t : Text) : Option (Text × Text) :=
  (Text.skip? ['('] (t.dropWhile isBlank)).bind fun inside =>
    (Text.skip? [')'] (inside.dropWhile noParenthesis)).bind fun behind =>
      (Text.skip? ['{'] (behind.dropWhile isBlank)).map fun rest =>
        (t.takeWhile isBlank ++ '(' :: inside.takeWhile noParenthesis
          ++ ')' :: behind.takeWhile isBlank ++ ['{'], rest)

/-- The name at the start of a text that has a head behind it. -/
def named? : Text → Option NamedHead
  | [] => none
  | c :: r =>
    if startsName c then
      (head? (r.dropWhile continuesName)).map fun (head, rest) =>
        ⟨c :: r.takeWhile continuesName, head, rest⟩
    else none

/-- A function declaration at the start of a text up to the brace of its body, and what
follows. -/
def declared? (t : Text) : Option (Text × Text) :=
  (Text.skip? "function".toList t).bind fun r =>
    if r.head?.any isBlank then
      (named? (r.dropWhile isBlank)).map fun n =>
        ("function".toList ++ r.takeWhile isBlank ++ n.name ++ n.head, n.rest)
    else none

/-- A head and what follows it make up the text. -/
theorem eq_of_head? {t head rest : Text} (h : head? t = some (head, rest)) :
    t = head ++ rest := by
  obtain ⟨inside, h1, h⟩ := Option.bind_eq_some_iff.1 h
  obtain ⟨behind, h2, h⟩ := Option.bind_eq_some_iff.1 h
  obtain ⟨r, h3, he⟩ := Option.map_eq_some_iff.1 h
  simp only [Prod.mk.injEq] at he
  obtain ⟨rfl, rfl⟩ := he
  have e1 : t.dropWhile isBlank = '(' :: inside := Text.skip?_eq_some_iff.1 h1
  have e2 : inside.dropWhile noParenthesis = ')' :: behind := Text.skip?_eq_some_iff.1 h2
  have e3 : behind.dropWhile isBlank = '{' :: r := Text.skip?_eq_some_iff.1 h3
  calc t = t.takeWhile isBlank ++ t.dropWhile isBlank := List.takeWhile_append_dropWhile.symm
    _ = t.takeWhile isBlank ++ '(' :: (inside.takeWhile noParenthesis
          ++ inside.dropWhile noParenthesis) := by rw [e1, List.takeWhile_append_dropWhile]
    _ = t.takeWhile isBlank ++ '(' :: (inside.takeWhile noParenthesis
          ++ ')' :: (behind.takeWhile isBlank ++ behind.dropWhile isBlank)) := by
        rw [e2, List.takeWhile_append_dropWhile]
    _ = _ := by rw [e3]; simp [List.append_assoc]

theorem eq_of_named? {t : Text} {n : NamedHead} (h : named? t = some n) :
    t = n.name ++ n.head ++ n.rest := by
  cases t with
  | nil => cases h
  | cons c r =>
    simp only [named?] at h
    split at h
    · obtain ⟨⟨head, rest⟩, hh, rfl⟩ := Option.map_eq_some_iff.1 h
      have e := eq_of_head? hh
      simp only [List.cons_append, List.append_assoc, ← e, List.takeWhile_append_dropWhile]
    · cases h

theorem eq_of_declared? {t read rest : Text} (h : declared? t = some (read, rest)) :
    t = read ++ rest := by
  obtain ⟨r, hr, h⟩ := Option.bind_eq_some_iff.1 h
  split at h
  · obtain ⟨n, hn, he⟩ := Option.map_eq_some_iff.1 h
    simp only [Prod.mk.injEq] at he
    obtain ⟨rfl, rfl⟩ := he
    have e := eq_of_named? hn
    simp only [List.append_assoc] at e ⊢
    rw [Text.skip?_eq_some_iff.1 hr, ← e, List.takeWhile_append_dropWhile]
  · cases h

theorem length_name_pos {t : Text} {n : NamedHead} (h : named? t = some n) :
    0 < n.name.length := by
  cases t with
  | nil => cases h
  | cons c r =>
    simp only [named?] at h
    split at h
    · obtain ⟨_, _, rfl⟩ := Option.map_eq_some_iff.1 h
      simp
    · cases h

/-- Something is read of a declaration. -/
theorem length_declared_pos {t read rest : Text} (h : declared? t = some (read, rest)) :
    0 < read.length := by
  obtain ⟨r, _, h⟩ := Option.bind_eq_some_iff.1 h
  split at h
  · obtain ⟨n, _, he⟩ := Option.map_eq_some_iff.1 h
    simp only [Prod.mk.injEq] at he
    obtain ⟨rfl, rfl⟩ := he
    simp
  · cases h

/-- Every `name(…) {` from a place in a script on, with the bytes before the name.  A function
declaration is passed over as a whole, and so is what a success has read. -/
def heads (afterWord : Bool) (offset : Nat) : Text → List Method
  | [] => []
  | c :: r =>
    match _h : if afterWord then none else declared? (c :: r) with
    | some (read, rest) => heads false (offset + Text.byteSize read) rest
    | none =>
      match _h' : named? (c :: r) with
      | some n =>
        ⟨n.name, offset⟩ :: heads false (offset + Text.byteSize (n.name ++ n.head)) n.rest
      | none => heads (isWord c) (offset + c.utf8Size) r
termination_by t => t.length
decreasing_by
  · cases afterWord with
    | true => cases _h
    | false =>
      have := congrArg List.length (eq_of_declared? _h)
      have := length_declared_pos _h
      simp only [List.length_append] at *
      omega
  · have := congrArg List.length (eq_of_named? _h')
    have := length_name_pos _h'
    simp only [List.length_append] at *
    omega
  · simp

/-- The methods of a script in order. -/
def methods (script : Text) : List Method :=
  (heads false 0 script).filter fun m => !controlWords.contains m.name

end Script

end Outline
