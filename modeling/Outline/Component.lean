import Outline.Component.Script
import Outline.Stylesheet

/-!
# Single-file components

The facts about a file that holds a template, a script and a style block.

* `Block`, `Component.block?` — the text of a block and the attributes of its opening tag;
* `ComponentFacts` — what the scan finds;
* `ComponentFacts.ofText` — the scan; every kind of block is looked for in the whole text, so
  their order does not matter;
* `ComponentFacts.header`, `ComponentFacts.methodLines`, `ComponentFacts.footer` — the lines.

A template ends at its last closing tag, since templates may be nested; a script or a style
block ends at the first.
-/

namespace Outline

/-- A block: the attributes of its opening tag, and its text. -/
structure Block where
  attributes : Text
  body : Text
deriving DecidableEq

namespace Component

def openMarker (tag : String) : Text := '<' :: tag.toList

def closeMarker (tag : String) : Text := '<' :: '/' :: tag.toList ++ ['>']

/-- The attributes of the first opening tag, and what follows it. -/
def opened? (tag : String) (t : Text) : Option (Text × Text) :=
  (Text.cut? (openMarker tag) t).bind fun (_, after) => Text.cut? ['>'] after

/-- The block from the first opening tag to the first closing tag behind it. -/
def block? (tag : String) (t : Text) : Option Block :=
  (opened? tag t).bind fun (attributes, inside) =>
    (Text.cut? (closeMarker tag) inside).map fun (body, _) => ⟨attributes, body⟩

/-- The block from the first opening tag to the last closing tag behind it. -/
def widestBlock? (tag : String) (t : Text) : Option Block :=
  (opened? tag t).bind fun (attributes, inside) =>
    (Text.cutLast? (closeMarker tag) inside).map fun (body, _) => ⟨attributes, body⟩

/-- The number of opening tags: angle brackets followed by a letter. -/
def countOpenTags : Text → Nat
  | [] => 0
  | '<' :: r => (if r.head?.any Char.isAlpha then 1 else 0) + countOpenTags r
  | _ :: r => countOpenTags r

/-- The name of a component whose script gives none. -/
def anonymous : Text := "Anonymous".toList

end Component

/-- The script block of a component. -/
structure ScriptBlock where
  text : Text
  typed : Bool
deriving DecidableEq

/-- The facts about a component; the parts that its blocks give are absent with the block. -/
structure ComponentFacts where
  templateElements : Option Nat
  name : Option Text
  methods : List Method
  styleRules : Option Nat
  script : Option ScriptBlock
deriving DecidableEq

namespace ComponentFacts

/-- The facts about a text. -/
def ofText (t : Text) : ComponentFacts :=
  let script := Component.block? "script" t
  { templateElements := (Component.widestBlock? "template" t).map (Component.countOpenTags ·.body)
    name := script.map fun b => (Script.name? b.body).getD Component.anonymous
    methods := (script.map fun b => Script.methods b.body).getD []
    styleRules := (Component.block? "style" t).map fun b => (Stylesheet.rules b.body).length
    script := script.map fun b => ⟨b.body, Script.isTyped b.attributes⟩ }

/-! ### Lines -/

/-- A number with its noun, as in `2 rules`. -/
def count (n : Nat) (noun : String) : Text := Text.ofNat n ++ ' ' :: Text.plural n noun

/-- The lines for the template and the name. -/
def header (f : ComponentFacts) : List Text :=
  (f.templateElements.map fun n => "Vue Template: ".toList ++ count n "element").toList
    ++ (f.name.map fun name => "Vue Component: ".toList ++ name).toList

/-- The lines of the methods, each with its offset in the script block. -/
def methodLines (f : ComponentFacts) : List (Nat × Text) :=
  f.methods.map fun m => (m.offset, "Vue Method: ".toList ++ m.name)

def footer (f : ComponentFacts) : List Text :=
  (f.styleRules.map fun n => "Vue Styles: ".toList ++ count n "rule").toList

/-- One line a fact, the template first. -/
def lines (f : ComponentFacts) : List Text :=
  f.header ++ f.methodLines.map (·.2) ++ f.footer

end ComponentFacts

end Outline
