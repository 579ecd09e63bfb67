import Outline.Glob.Parser
import Outline.Store

/-!
# Ignore files

Which files a project asks to leave out.

* `IgnoreRule`, `IgnoreRule.ofLine?` — one line of an ignore file;
* `IgnoreRule.rulesOf` — the rules of a file, up to the first line that is no text;
* `verdict?` — the last rule that speaks about a path decides;
* `IgnoreLevel` — the ignore files of one directory, with the names that lead from it to the
  directory being searched; `IgnoreLevel.inForce` — those of a directory and all above it;
* `isIgnored` — whether the levels in force, innermost first, leave out an entry.

A directory's `.ignore` always counts; its `.gitignore` and the repository's exclude file count
only inside a repository, up to the directory that is its root.  `.ignore` files decide before
`.gitignore` files, these before exclude files, and inner directories before outer ones.
-/

namespace Outline

/-- A line of an ignore file. -/
structure IgnoreRule where
  glob : Glob
  /-- Takes back what earlier rules leave out. -/
  keeps : Bool
  /-- Speaks about directories only. -/
  directoriesOnly : Bool

/-- What the rules say about a path. -/
inductive Verdict where
  | ignore
  | keep
deriving DecidableEq

namespace IgnoreRule

/-- The line without the blanks at its end, unless the last of them is escaped. -/
def trimLine (line : Text) : Text :=
  if line.reverse.take 2 = [' ', '\\'] then line else line.trimEnd

/-- The pattern of a rule as a glob: one without a slash matches at every depth, and one that
ends in `/**` only what is inside. -/
def globText (anchored : Bool) (pattern : Text) : Text :=
  let anyDepth := !anchored && !pattern.contains '/' && pattern ≠ ['*', '*']
  let pattern := if anyDepth then ['*', '*', '/'] ++ pattern else pattern
  if pattern.reverse.take 3 = ['*', '*', '/'] then pattern ++ ['/', '*'] else pattern

/-- The pattern without the slash at its end, and whether it had one.  An escape before the
slash goes with it. -/
def splitDirectory (pattern : Text) : Text × Bool :=
  match pattern.reverse with
  | '/' :: '\\' :: r => (r.reverse, true)
  | '/' :: r => (r.reverse, true)
  | _ => (pattern, false)

/-- The mark of exception, if the line has one, and the slash that anchors the pattern to the
directory of the file: whether they are there, and the pattern behind them. -/
def splitMarks (line : Text) : Bool × Bool × Text :=
  match line with
  | '\\' :: '!' :: r => (false, false, '!' :: r)
  | '\\' :: '#' :: r => (false, false, '#' :: r)
  | '!' :: '/' :: r => (true, true, r)
  | '!' :: r => (true, false, r)
  | '/' :: r => (false, true, r)
  | r => (false, false, r)

/-- The rule of a line.  Comments, blank lines and lines whose pattern is none have no rule. -/
def ofLine? (line : Text) : Option IgnoreRule :=
  let trimmed := trimLine line
  if line.head? = some '#' ∨ trimmed = [] then none
  else
    let (keeps, anchored, pattern) := splitMarks trimmed
    let (pattern, directoriesOnly) := splitDirectory pattern
    match Glob.parseLenient (globText anchored pattern) with
    | .ok glob => some ⟨glob, keeps, directoriesOnly⟩
    | .error _ => none

/-- The lines of a file, up to the first that is no text; a mark of byte order at the start is
left out. -/
def linesOf (bytes : Bytes) : List Text :=
  let lines := ((bytes.splitOn 0x0A).map Utf8.decode?).takeWhile Option.isSome
  match lines.filterMap id with
  | first :: rest => first.dropWhile (· == '\uFEFF') :: rest
  | [] => []

/-- A line without the carriage return at its end. -/
def withoutReturn (line : Text) : Text :=
  if line.getLast? = some '\r' then line.dropLast else line

def rulesOf (bytes : Bytes) : List IgnoreRule :=
  (linesOf bytes).filterMap fun line => ofLine? (withoutReturn line)

/-- Whether a rule speaks about a path below its directory. -/
def speaksOf (r : IgnoreRule) (path : Bytes) (isDirectory : Bool) : Bool :=
  (!r.directoriesOnly || isDirectory) && r.glob.isMatch path

def verdict (r : IgnoreRule) : Verdict := if r.keeps then .keep else .ignore

end IgnoreRule

/-- What rules say about a path: the last that speaks decides. -/
def verdict? (rules : List IgnoreRule) (path : Bytes) (isDirectory : Bool) : Option Verdict :=
  (rules.reverse.find? (·.speaksOf path isDirectory)).map (·.verdict)

/-! ### Levels -/

/-- The ignore files of a directory.  `names` leads from it to the directory being searched. -/
structure IgnoreLevel where
  names : List Bytes
  ignoreRules : List IgnoreRule
  gitRules : List IgnoreRule
  excludeRules : List IgnoreRule
  isRepository : Bool

namespace IgnoreLevel

/-- The path of a list of names. -/
def pathOf (names : List Bytes) : Bytes := [Path.slash].intercalate names

/-- The rules of the file under a list of names; none if it cannot be read. -/
def rulesAt (s : Store) (names : List Bytes) : List IgnoreRule :=
  match s.read ⟨pathOf names⟩ with
  | .ok f => IgnoreRule.rulesOf f.bytes
  | .error _ => []

/-- The name of a file, as it is listed. -/
def nameOf (name : String) : Bytes := Text.utf8 name.toList

/-- The level of the directory under `directory`, when the search is at `names` below it. -/
def ofDirectory (s : Store) (directory names : List Bytes) : IgnoreLevel where
  names := names
  ignoreRules := rulesAt s (directory ++ [nameOf ".ignore"])
  gitRules := rulesAt s (directory ++ [nameOf ".gitignore"])
  excludeRules := rulesAt s (directory ++ [nameOf ".git", nameOf "info", nameOf "exclude"])
  isRepository := s.has ⟨pathOf (directory ++ [nameOf ".git"])⟩

/-- The level when the search goes into a directory. -/
def descend (l : IgnoreLevel) (name : Bytes) : IgnoreLevel := { l with names := l.names ++ [name] }

def pathTo (l : IgnoreLevel) (name : Bytes) : Bytes := pathOf (l.names ++ [name])

/-- The levels in force in a directory: its own and those of the directories above, the innermost
first. -/
def inForce (s : Store) (directory : List Bytes) : List IgnoreLevel :=
  (List.range (directory.length + 1)).reverse.map fun n =>
    ofDirectory s (directory.take n) (directory.drop n)

end IgnoreLevel

/-- The levels up to the root of the repository; none outside a repository. -/
def repositoryLevels (levels : List IgnoreLevel) : List IgnoreLevel :=
  match levels.dropWhile fun l => !l.isRepository with
  | [] => []
  | root :: _ => levels.takeWhile (fun l => !l.isRepository) ++ [root]

/-- What the levels say about an entry. -/
def levelsVerdict? (levels : List IgnoreLevel) (name : Bytes) (isDirectory : Bool) :
    Option Verdict :=
  let git := repositoryLevels levels
  (levels.findSome? fun l => verdict? l.ignoreRules (l.pathTo name) isDirectory).or
    ((git.findSome? fun l => verdict? l.gitRules (l.pathTo name) isDirectory).or
      (git.findSome? fun l => verdict? l.excludeRules (l.pathTo name) isDirectory))

/-- Whether the levels leave out an entry. -/
def isIgnored (levels : List IgnoreLevel) (name : Bytes) (isDirectory : Bool) : Bool :=
  levelsVerdict? levels name isDirectory == some .ignore

end Outline
