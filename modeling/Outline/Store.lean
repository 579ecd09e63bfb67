import Outline.Node.Basic
import Outline.Path

/-!
# Stores

A store is a tree of files, directories and symbolic links: all that a run reads or writes.

* `Entry`, `File`, `Store` — what a store holds.  A file has its bytes and, if a grammar
  built one for its text, a syntax tree;
* `Store.find?` — the entry under a list of names, no link followed;
* `Store.resolve` — where a path leads, links followed: to an entry, or to a free name in a
  directory;
* `Store.read`, `Store.readText`, `Store.write` — the operations, with the reasons why they
  fail;
* `Store.put`, `Store.add` — an entry under a list of names, directories made as needed.

Paths are resolved from the root of the store, which is also its own parent.
-/

namespace Outline

/-- A file: its bytes, and the syntax tree of its text. -/
structure File where
  bytes : Bytes
  tree : Option Node

/-- What a name in a directory stands for. -/
inductive Entry where
  | file (f : File)
  | link (target : Path)
  | dir (entries : List (Bytes × Entry))

/-- The entries of a directory, in the order of their making. -/
abbrev Entries := List (Bytes × Entry)

/-- A tree of files, given by the entries of its root. -/
structure Store where
  entries : Entries

/-- Why a path cannot be read or written. -/
inductive IoError where
  | notFound
  | notDirectory
  | isDirectory
  | nameTooLong
  | tooManyLinks
  /-- The bytes are not the UTF-8 form of a text. -/
  | notText
deriving DecidableEq

def IoError.message : IoError → Text
  | .notFound => "No such file or directory (os error 2)".toList
  | .notDirectory => "Not a directory (os error 20)".toList
  | .isDirectory => "Is a directory (os error 21)".toList
  | .nameTooLong => "File name too long (os error 36)".toList
  | .tooManyLinks => "Too many levels of symbolic links (os error 40)".toList
  | .notText => "stream did not contain valid UTF-8".toList

/-! ### Directories -/

namespace Entries

def get? (es : Entries) (name : Bytes) : Option Entry := (es.find? (·.1 == name)).map (·.2)

/-- Puts an entry under a name, in the place of the one that had it. -/
def set (name : Bytes) (e : Entry) : Entries → Entries
  | [] => [(name, e)]
  | (n, f) :: es => if n = name then (n, e) :: es else (n, f) :: set name e es

theorem get?_set (es : Entries) (name n : Bytes) (e : Entry) :
    get? (set name e es) n = if name = n then some e else get? es n := by
  induction es with
  | nil => by_cases h : name = n <;> simp [get?, set, h]
  | cons a es ih =>
    obtain ⟨m, f⟩ := a
    simp only [get?] at ih ⊢
    by_cases hm : m = name
    · subst hm
      by_cases h : m = n <;> simp [set, h]
    · by_cases h : m = n
      · subst h
        simp [set, hm, Ne.symm hm]
      · simp [set, hm, h, ih]

/-- The entry under a list of names; the entries themselves under none. -/
def walk? : Entries → List Bytes → Option Entry
  | es, [] => some (.dir es)
  | es, name :: names =>
    match get? es name, names with
    | some e, [] => some e
    | some (.dir inner), _ => walk? inner names
    | _, _ => none

/-- Puts an entry under a list of names; what is no directory on the way becomes one. -/
def put (e : Entry) : List Bytes → Entries → Entries
  | [], es => es
  | [name], es => set name e es
  | name :: names, es =>
    let inner := match get? es name with
      | some (.dir inner) => inner
      | _ => []
    set name (.dir (put e names inner)) es

end Entries

namespace Store

def empty : Store := ⟨[]⟩

/-- The entry under a list of names, no link followed. -/
def find? (s : Store) (names : List Bytes) : Option Entry := s.entries.walk? names

/-- Puts an entry under a list of names. -/
def put (s : Store) (names : List Bytes) (e : Entry) : Store := ⟨s.entries.put e names⟩

/-- The store with one more entry; a directory that is there already stays as it is. -/
def add (s : Store) (names : List Bytes) (e : Entry) : Store :=
  match s.find? names, e with
  | some (.dir _), .dir _ => s
  | _, e => s.put names e

/-! ### Following paths -/

/-- Where a path leads. -/
inductive Place where
  /-- To an entry under a list of names; the entry is no link. -/
  | entry (names : List Bytes) (e : Entry)
  /-- To a free name in a directory. -/
  | vacant (directory : List Bytes) (name : Bytes)

def nameLimit : Nat := 255

/-- The number of bytes from which on a path is too long. -/
def pathLimit : Nat := 4096

def linkLimit : Nat := 40

/-- Follows the pieces of a path from the directory under `names`.  Each link takes one of
`links` and puts the pieces of its target in front of those to come. -/
def follow (s : Store) (links : Nat) (names : List Bytes) (pieces : List Bytes) :
    Except IoError Place :=
  match pieces with
  | [] =>
    match s.find? names with
    | some e => .ok (.entry names e)
    | none => .error .notFound
  | piece :: rest =>
    if Path.idle piece then follow s links names rest
    else if piece = [Path.dot, Path.dot] then follow s links names.dropLast rest
    else if nameLimit < piece.length then .error .nameTooLong
    else match s.find? (names ++ [piece]) with
      | none => if rest = [] then .ok (.vacant names piece) else .error .notFound
      | some (.dir _) => follow s links (names ++ [piece]) rest
      | some (.file f) =>
        if rest = [] then .ok (.entry (names ++ [piece]) (.file f)) else .error .notDirectory
      | some (.link target) =>
        match links with
        | 0 => .error .tooManyLinks
        | links + 1 =>
          follow s links (if target.isAbsolute then [] else names)
            (target.bytes.splitOn Path.slash ++ rest)
termination_by (links, pieces.length)

/-- Where a path leads from the root of the store. -/
def resolve (s : Store) (p : Path) : Except IoError Place :=
  if p.bytes = [] then .error .notFound
  else if pathLimit ≤ p.bytes.length then .error .nameTooLong
  else s.follow linkLimit [] (p.bytes.splitOn Path.slash)

/-- The names of the entry to which a path leads, and the entry. -/
def get (s : Store) (p : Path) : Except IoError (List Bytes × Entry) :=
  match s.resolve p with
  | .ok (.entry names e) => .ok (names, e)
  | .ok (.vacant _ _) => .error .notFound
  | .error e => .error e

/-- Whether a path leads to an entry. -/
def has (s : Store) (p : Path) : Bool := (s.get p).isOk

def hasDirectory (s : Store) (p : Path) : Bool :=
  match s.get p with
  | .ok (_, .dir _) => true
  | _ => false

/-! ### Reading and writing -/

/-- The file to which a path leads. -/
def read (s : Store) (p : Path) : Except IoError File :=
  match s.get p with
  | .ok (_, .file f) => .ok f
  | .ok (_, _) => .error .isDirectory
  | .error e => .error e

/-- The file to which a path leads, with its text. -/
def readText (s : Store) (p : Path) : Except IoError (Text × File) :=
  match s.read p with
  | .ok f =>
    match Utf8.decode? f.bytes with
    | some t => .ok (t, f)
    | none => .error .notText
  | .error e => .error e

/-- Why a path with a slash at its end cannot be written: its last name would have to be a
directory. -/
def directoryError (s : Store) (p : Path) : IoError :=
  let pieces := ((p.bytes.splitOn Path.slash).reverse.dropWhile (· == [])).tail.reverse
  match s.follow linkLimit [] pieces with
  | .ok (.entry _ (.dir _)) => .isDirectory
  | .ok (.entry _ _) => .notDirectory
  | .ok (.vacant _ _) => .notFound
  | .error e => e

/-- Writes a file where a path leads, over the one that is there. -/
def write (s : Store) (p : Path) (bytes : Bytes) : Except IoError Store :=
  if p.bytes.getLast? = some Path.slash then .error (s.directoryError p)
  else match s.resolve p with
    | .ok (.entry _ (.dir _)) => .error .isDirectory
    | .ok (.entry names _) => .ok (s.put names (.file ⟨bytes, none⟩))
    | .ok (.vacant directory name) => .ok (s.put (directory ++ [name]) (.file ⟨bytes, none⟩))
    | .error e => .error e

/-- A path that can be read leads somewhere. -/
theorem has_of_read {s : Store} {p : Path} {f : File} (h : s.read p = .ok f) :
    s.has p = true := by
  unfold read at h
  split at h
  · rename_i hg
    simp [has, hg, Except.isOk, Except.toBool]
  · cases h
  · cases h

end Store

end Outline
