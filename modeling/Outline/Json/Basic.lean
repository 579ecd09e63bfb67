import Outline.Text.Basic

/-!
# JSON values

* `Json` — a value as it is written: numbers keep their literal, objects all their members in
  order, and a string with half of a surrogate pair is kept apart, as it denotes no text;
* `Json.ofMembers` — an object from members whose names may denote no text either;
* `Json.natural?` — the unsigned 64-bit number that a literal denotes;
* `Json.bool?` and the other readers — the content of a value of one sort.
-/

namespace Outline

/-- A JSON value. -/
inductive Json where
  | null
  | bool (b : Bool)
  | number (literal : Text)
  | string (t : Text)
  /-- A string with an escape that is half of a surrogate pair, or an object with such a name: it
  can only be passed over. -/
  | brokenString
  | array (items : List Json)
  | object (members : List (Text × Json))

namespace Json

/-- The object with the given members, if all their names denote texts. -/
def ofMembers (ms : List (Option Text × Json)) : Json :=
  match ms.mapM fun (name, v) => name.map fun t => (t, v) with
  | some ms => .object ms
  | none => .brokenString

/-- A number given by its decimal digits. -/
def ofNat (n : Nat) : Json := .number (Text.ofNat n)

/-- The unsigned number of at most 64 bits that a value is; it must be written without sign,
point and exponent. -/
def natural? : Json → Option UInt64
  | .number literal =>
    let n := Text.natOfDigits literal
    if literal.all Char.isDigit && n < UInt64.size then some (UInt64.ofNat n) else none
  | _ => none

def bool? : Json → Option Bool
  | .bool b => some b
  | _ => none

def string? : Json → Option Text
  | .string t => some t
  | _ => none

def array? : Json → Option (List Json)
  | .array items => some items
  | _ => none

def strings? (v : Json) : Option (List Text) := v.array?.bind fun items => items.mapM string?

/-- The value of the first member with a name. -/
def get? (key : String) : Json → Option Json
  | .object members => (members.find? (·.1 == key.toList)).map (·.2)
  | _ => none

end Json

end Outline
