import Outline.Json.Basic
import Outline.Node.Rows
import Outline.Store

/-!
# Archives

A store and syntax trees given as JSON values.

* `Node.ofJson?` — a tree: a list of rows `[depth, kind, start, stop, field, named]`, of which
  the field may be left out or null, and the last is 0 for an anonymous node;
* `Path.ofJson?` — a path: a string, or an object with its bytes in hexadecimal digits;
* `Store.ofJson?` — a store: a list of entries, each an object with its `path` and either its
  `text`, its bytes as `hex`, a text to `repeat` and how often, the target of a `link`, or
  `dir` for a directory.  A file may have the `tree` of its text.

Entries are made in order, with the directories that lead to them.
-/

namespace Outline

namespace Json

def nat? (v : Json) : Option Nat := v.natural?.map UInt64.toNat

def name? (v : Json) : Option String := v.string?.map String.ofList

def hexValue? (c : Char) : Option Nat :=
  if c.isDigit then some (c.toNat - '0'.toNat)
  else if 'a' ≤ c ∧ c ≤ 'f' then some (c.toNat - 'a'.toNat + 10)
  else none

/-- The bytes that hexadecimal digits spell. -/
def bytesOfHex? : Text → Option Bytes
  | [] => some []
  | a :: b :: r => do
    let n := 16 * (← hexValue? a) + (← hexValue? b)
    some (UInt8.ofNat n :: (← bytesOfHex? r))
  | _ => none

end Json

/-! ### Trees -/

def Row.ofJson? (v : Json) : Option Row :=
  match v with
  | .array (depth :: kind :: start :: stop :: more) => do
    let field ← match more.head? with
      | none | some .null => some none
      | some f => f.name?.map some
    let named ← match more.tail.head? with
      | none => some true
      | some n => n.nat?.map (· ≠ 0)
    some ⟨← depth.nat?, ← kind.name?, ← start.nat?, ← stop.nat?, field, named⟩
  | _ => none

def Node.ofJson? (v : Json) : Option Node :=
  (v.array?.bind fun rows => rows.mapM Row.ofJson?).bind Node.ofRows?

/-! ### Stores -/

def Path.ofJson? : Json → Option Path
  | .string t => some (Path.ofText t)
  | v => ((v.get? "hex").bind Json.string?).bind fun hex => (Json.bytesOfHex? hex).map Path.mk

/-- The bytes of the file that an object describes. -/
def File.bytesOfJson? (v : Json) : Option Bytes :=
  match v.get? "text", v.get? "hex", v.get? "repeat" with
  | some (.string t), _, _ => some t.utf8
  | _, some (.string hex), _ => Json.bytesOfHex? hex
  | _, _, some (.array [.string t, n]) =>
    n.nat?.map fun n => (List.replicate n (Text.utf8 t)).flatten
  | _, _, _ => none

/-- The entry that an object describes. -/
def Entry.ofJson? (v : Json) : Option Entry :=
  match v.get? "link", v.get? "dir" with
  | some target, _ => (Path.ofJson? target).map .link
  | _, some _ => some (.dir [])
  | _, _ => (File.bytesOfJson? v).map fun bytes => .file ⟨bytes, (v.get? "tree").bind Node.ofJson?⟩

namespace Store

/-- The names that the pieces of a path spell. -/
def namesOf (p : Path) : List Bytes :=
  (p.bytes.splitOn Path.slash).filter fun piece => !Path.idle piece

/-- The store that a list of entries makes. -/
def ofJson? (v : Json) : Option Store :=
  v.array?.bind fun entries => entries.foldlM (fun s entry => do
    some (s.add (namesOf (← (entry.get? "path").bind Path.ofJson?)) (← Entry.ofJson? entry))) empty

end Store

end Outline
