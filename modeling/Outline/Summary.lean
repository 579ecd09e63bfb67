import Outline.Component
import Outline.Line
import Outline.Node.Walk
import Outline.Registry

/-!
# Summaries

The lines that stand for a source text.

* `SummaryOptions` — how many lines, and how much each says;
* `Summary.treeLines` — the lines of the nodes of wanted kinds, each with its start byte;
* `Summary.componentLines` — the lines of a component: methods found by the scan and nodes of
  the script's tree, merged by their offsets, between header and footer;
* `Summary.ofSource` — the lines of a source of a known language.

The syntax tree of a source is given beside it; for a component it is the tree of the script
block.  A grammar that gives up gives no tree.  The limit counts nodes before they are written,
so a node without a line still takes a place.
-/

namespace Outline

/-- The choices that a summary leaves to its user. -/
structure SummaryOptions where
  maxLines : Nat := 20
  /-- Write parameters and results of callables. -/
  signatures : Bool := true
  /-- Collect call sites as well. -/
  includeCalls : Bool := false
  /-- Allow files to be read at the same time. -/
  parallel : Bool := false
deriving DecidableEq

namespace Summary

/-- The line for a language whose grammar does not load. -/
def notice (l : Language) : Text :=
  "Notice: ".toList ++ l.name.toList ++ " parsing support is coming soon".toList

/-- The lines of the first nodes of the kinds, each with its start byte. -/
def treeLines (tree : Option Node) (source : Text) (kinds : List String) (o : SummaryOptions) :
    List (Nat × Text) :=
  match tree with
  | none => []
  | some root => (root.collect kinds o.maxLines).filterMap fun n =>
      (n.line? source o.signatures).map fun line => (n.start, line)

/-- The lines of a component's script block: those of its tree, if the language of the block
has a grammar and the block is not blank. -/
def scriptLines (l : Language) (script : ScriptBlock) (tree : Option Node) (o : SummaryOptions) :
    List (Nat × Text) :=
  match l.script with
  | none => []
  | some embedded =>
    let extension := if script.typed then embedded.typed else embedded.plain
    match Registry.standard.lookup? extension with
    | none => []
    | some scriptLanguage =>
      if scriptLanguage.parses && !script.text.blank then
        treeLines tree script.text embedded.kinds o
      else []

/-- The methods of a component and the nodes of its script, by offset; at the same offset the
methods come first. -/
def mergedLines (facts : ComponentFacts) (nodes : List (Nat × Text)) : List (Nat × Text) :=
  (facts.methodLines ++ nodes).mergeSort fun a b => a.1 ≤ b.1

/-- The lines of a component. -/
def componentLines (l : Language) (source : Text) (tree : Option Node) (o : SummaryOptions) :
    List Text :=
  let facts := ComponentFacts.ofText source
  let nodes := (facts.script.map fun script => scriptLines l script tree o).getD []
  (facts.header ++ (mergedLines facts nodes).map (·.2) ++ facts.footer).take o.maxLines

/-- The lines of a source. -/
def ofSource (l : Language) (source : Text) (tree : Option Node) (o : SummaryOptions) :
    List Text :=
  if source.blank then []
  else match l.backend with
    | .grammar false => [notice l]
    | .grammar true => (treeLines tree source (l.kindsOfInterest o.includeCalls) o).map (·.2)
    | .stylesheet => Stylesheet.lines source o.maxLines
    | .component => componentLines l source tree o

theorem ofSource_of_blank (l : Language) {source : Text} (tree : Option Node)
    (o : SummaryOptions) (h : source.blank = true) : ofSource l source tree o = [] := by
  simp [ofSource, h]

end Summary

end Outline
