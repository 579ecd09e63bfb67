import Outline.Config.Basic
import Outline.Ignore

/-!
# Discovery

The files below a root that are worth a summary.

* `DiscoveryError` — why there can be no search;
* `Search.accepts` — the tests on one file: extension, exclude patterns, length of the path and
  size;
* `Search.below`, `Search.found` — the accepted files of a directory and of the root, as lists of
  names below the root;
* `discover` — their paths, spelled from the root.

Directories are searched depth first, the entries of each in the order of their names as bytes.
Links are neither followed nor found, except for the root itself.  An entry that ignore files
leave out is passed over with everything in it, and so is a directory with an excluded name;
the root's own name does not matter.
-/

namespace Outline

/-- Why there can be no search. -/
inductive DiscoveryError where
  | notDirectory (root : Path)
  | badPattern (pattern : Text) (fault : GlobFault)
deriving DecidableEq

namespace DiscoveryError

def message : DiscoveryError → Text
  | .notDirectory root => "not a directory: ".toList ++ root.display
  | .badPattern pattern _ => "invalid exclude pattern: ".toList ++ pattern

def fullMessage : DiscoveryError → Text
  | .notDirectory root => message (.notDirectory root)
  | .badPattern pattern fault =>
    message (.badPattern pattern fault) ++ ": error parsing glob '".toList ++ pattern
      ++ "': ".toList ++ fault.message

end DiscoveryError

/-- The patterns that the texts are, up to the first fault. -/
def readPatterns : List Text → Except DiscoveryError (List Glob)
  | [] => .ok []
  | p :: ps =>
    match Glob.parse p with
    | .error fault => .error (.badPattern p fault)
    | .ok g => (readPatterns ps).map (g :: ·)

/-- What a search is given. -/
structure Search where
  store : Store
  root : Path
  config : Config
  excludes : List Glob

namespace Search

/-- The extension of a name with its dot, in lower case; nothing if the name has none. -/
def extensionOf (name : Bytes) : Text :=
  match Path.nameExtension? name with
  | some e => '.' :: Text.lowercase (Utf8.decodeLossy e)
  | none => []

/-- Whether a file is worth a summary. -/
def accepts (s : Search) (names : List Bytes) (f : File) : Bool :=
  s.config.wantsExtension (extensionOf (names.getLast?.getD []))
    && !s.excludes.any (·.isMatch (Text.utf8 ((s.root.below names).relative s.root)))
    && (s.root.below names).bytes.length < Store.pathLimit
    && f.bytes.length ≤ s.config.maxFileSize.toNat

/-- Whether a directory below the root is searched, by its name. -/
def entersName (s : Search) (name : Bytes) : Bool :=
  !s.config.excludeDirs.contains (Utf8.decodeLossy name)

/-- The lists of the children, in the order of the children's names. -/
def inOrder (found : List (Bytes × List (List Bytes))) : List (List Bytes) :=
  (found.mergeSort fun a b => a.1 ≤ b.1).flatMap (·.2)

mutual

/-- The accepted files of an entry with a name, in the directory under `names` below the root
and under `position` in the store. -/
def entry (s : Search) (position names : List Bytes) (levels : List IgnoreLevel) (name : Bytes) :
    Entry → List (List Bytes)
  | .file f =>
    if isIgnored levels name false then []
    else if s.accepts (names ++ [name]) f then [names ++ [name]] else []
  | .link _ => []
  | .dir entries =>
    if isIgnored levels name true || !s.entersName name then []
    else
      let position := position ++ [name]
      let levels := IgnoreLevel.ofDirectory s.store position [] :: levels.map (·.descend name)
      inOrder (below s position (names ++ [name]) levels entries)

/-- The accepted files of a directory, for each of its entries. -/
def below (s : Search) (position names : List Bytes) (levels : List IgnoreLevel) :
    Entries → List (Bytes × List (List Bytes))
  | [] => []
  | (name, e) :: es =>
    (name, entry s position names levels name e) :: below s position names levels es

end

/-- The accepted files below the root, which is the directory under `position` in the store. -/
def found (s : Search) (position : List Bytes) (entries : Entries) : List (List Bytes) :=
  inOrder (s.below position [] (IgnoreLevel.inForce s.store position) entries)

end Search

/-- The paths of the files below a root that are worth a summary. -/
def discover (store : Store) (root : Path) (config : Config) :
    Except DiscoveryError (List Path) :=
  match store.get root with
  | .ok (position, .dir entries) =>
    match readPatterns config.excludePatterns with
    | .error e => .error e
    | .ok excludes =>
      let s : Search := ⟨store, root, config, excludes⟩
      .ok ((s.found position entries).map root.below)
  | _ => .error (.notDirectory root)

end Outline
