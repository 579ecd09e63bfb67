import Outline.Path

/-!
# Priority

Which files of a project come first.

* `foldLetter` — the case folding in which names are searched;
* `isImportant` — whether a file stands near the root or bears one of the names that matter;
* `prioritize` — the important files in their order, then some of the others in theirs.
-/

namespace Outline

/-- The lower-case ASCII letter that a character equals when case does not matter: its own, or
that of the long s and of the Kelvin sign. -/
def foldLetter (c : Char) : Char :=
  if c = 'ſ' then 's' else if c = '\u212A' then 'k' else c.toLower

/-- The names that make a file important. -/
def importantNames : List Text :=
  ["package.json", "main.", "index.", "app.", "src/", "config.", "router.", "server."].map
    String.toList

/-- The most components of a path that stands near the root. -/
def shallowDepth : Nat := 2

/-- Whether a path bears one of the important names. -/
def hasImportantName (relative : Text) : Bool :=
  importantNames.any fun name => Text.occurs name (relative.map foldLetter)

/-- Whether a file always comes first. -/
def isImportant (root p : Path) : Bool :=
  let relative := p.relative root
  hasImportantName relative || (relative.splitOn '/').length ≤ shallowDepth

/-- The important files in their order, then the first `limit` of the others. -/
def prioritize (files : List Path) (root : Path) (limit : Nat) : List Path :=
  files.filter (isImportant root) ++ (files.filter fun f => !isImportant root f).take limit

/-- Nothing is made up. -/
theorem mem_of_mem_prioritize {files : List Path} {root p : Path} {limit : Nat}
    (h : p ∈ prioritize files root limit) : p ∈ files := by
  rcases List.mem_append.1 h with h | h
  · exact (List.mem_filter.1 h).1
  · exact (List.mem_filter.1 (List.mem_of_mem_take h)).1

end Outline
