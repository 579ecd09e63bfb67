import Outline.Text.Utf8

/-!
# Paths

A path is a sequence of bytes; its meaning is the list of its components.  Repeated slashes and
inner dots spell nothing, so many paths have the same components.

* `Path`, `Component` — the spelling and what it is made of;
* `Path.components` — the components in order;
* `Path.join`, `Path.below` — a path continued by another, or by names;
* `Path.extension?` — the bytes after the last dot of the last name;
* `Path.within?` — what is left of a path below another one, compared by components and
  otherwise spelled as it was;
* `Path.relative` — the same as text with forward slashes, the whole path if it does not lie
  below.
-/

namespace Outline

/-- A path as it is spelled. -/
structure Path where
  bytes : Bytes
deriving DecidableEq

/-- One step of a path. -/
inductive Component where
  /-- The root of the file system. -/
  | root
  /-- A dot at the very start. -/
  | here
  /-- Two dots. -/
  | up
  | name (bytes : Bytes)
deriving DecidableEq

namespace Path

def slash : UInt8 := 0x2F

/-- The byte that stands for the directory itself, and before an extension. -/
def dot : UInt8 := 0x2E

def ofText (t : Text) : Path := ⟨t.utf8⟩

def ofString (s : String) : Path := ofText s.toList

/-- The path as it is shown. -/
def display (p : Path) : Text := Utf8.decodeLossy p.bytes

/-! ### Components -/

/-- Whether a piece between slashes spells nothing. -/
def idle (piece : Bytes) : Bool := piece == [] || piece == [dot]

/-- The component that a piece spells, other than a leading dot. -/
def component? (piece : Bytes) : Option Component :=
  if idle piece then none
  else if piece = [dot, dot] then some .up
  else some (.name piece)

/-- The components of the pieces after the start, each with the pieces behind it. -/
def locateAll : List Bytes → List (Component × List Bytes)
  | [] => []
  | piece :: rest =>
    match component? piece with
    | some c => (c, rest) :: locateAll rest
    | none => locateAll rest

/-- The components of a path, each with the pieces behind it. -/
def located (p : Path) : List (Component × List Bytes) :=
  match p.bytes.splitOn slash with
  | [] :: piece :: rest => (.root, piece :: rest) :: locateAll (piece :: rest)
  | [b] :: rest => if b = dot then (.here, rest) :: locateAll rest else locateAll ([b] :: rest)
  | pieces => locateAll pieces

/-- The components of a path, in order. -/
def components (p : Path) : List Component := p.located.map (·.1)

/-! ### Joining -/

/-- Whether a path starts at the root. -/
def isAbsolute (p : Path) : Bool := p.bytes.head? == some slash

/-- A path continued by another; an absolute one takes its place. -/
def join (p q : Path) : Path :=
  if q.isAbsolute then q
  else if p.bytes = [] ∨ p.bytes.getLast? = some slash then ⟨p.bytes ++ q.bytes⟩
  else ⟨p.bytes ++ slash :: q.bytes⟩

/-- A path continued by names, one after the other. -/
def below (p : Path) (names : List Bytes) : Path := names.foldl (fun p name => p.join ⟨name⟩) p

/-! ### Extensions -/

/-- The last component, if it is a name. -/
def name? (p : Path) : Option Bytes :=
  match p.components.getLast? with
  | some (.name n) => some n
  | _ => none

/-- The bytes after the last dot of a name, unless that dot is its first byte. -/
def nameExtension? (n : Bytes) : Option Bytes :=
  let tail := n.reverse.takeWhile (· ≠ dot)
  if tail.length + 1 < n.length then some tail.reverse else none

/-- The extension of the last name. -/
def extension? (p : Path) : Option Bytes := p.name?.bind nameExtension?

/-! ### Paths below a path -/

/-- Pieces without those at the end that spell nothing. -/
def trimEnd (pieces : List Bytes) : List Bytes := (pieces.reverse.dropWhile idle).reverse

def ofPieces (pieces : List Bytes) : Path := ⟨[slash].intercalate pieces⟩

/-- A path without the pieces at its end that spell nothing; its start is kept. -/
def withoutIdleEnd (p : Path) : Path :=
  match p.bytes.splitOn slash with
  | [] :: piece :: rest => ⟨slash :: (ofPieces (trimEnd (piece :: rest))).bytes⟩
  | piece :: rest =>
    if piece = [dot] then ofPieces (piece :: trimEnd rest) else ofPieces (trimEnd (piece :: rest))
  | [] => p

/-- What is left of `p` below `base`, if the components of `base` are the first of its own. -/
def within? (p base : Path) : Option Path :=
  if base.components.isPrefixOf p.components then
    match base.components.length with
    | 0 => some p.withoutIdleEnd
    | n + 1 => p.located[n]?.map fun c => ofPieces (trimEnd (c.2.dropWhile idle))
  else none

/-- The path below `base` as text with forward slashes; the whole path if it lies elsewhere. -/
def relative (p base : Path) : Text :=
  ((p.within? base).getD p).display.map fun c => if c = '\\' then '/' else c

end Path

end Outline
