import Outline.Label
import Outline.Node.Basic

/-!
# Lines

The one line that stands for a node of a syntax tree: its label, a colon, and what its kind's
rule finds in the tree and the source.

* `Node.declarators` — the chain of declarators under a node, down to a given depth;
* `Node.name?` — the name of a declaration;
* `Node.signature` — parameters and result, as they follow a name;
* `Node.line?` — the line; none if there is nothing to name.

The name may stand on any of the first `declaratorDepth` declarators; a field beside it, such
as the parameter list, is looked for on the node and the declarators above the last of these,
so that both look equally deep.
-/

namespace Outline

/-- The most characters of an element's source that a line shows. -/
def previewLimit : Nat := 50

/-- The most characters of a parameter list or of a result that a line shows. -/
def signatureLimit : Nat := 120

/-- How many declarators deep a name is looked for. -/
def declaratorDepth : Nat := 6

/-- The kinds of a declarator that is a name itself. -/
def identifierKinds : List String :=
  ["identifier", "field_identifier", "type_identifier", "qualified_identifier",
    "destructor_name", "operator_name"]

/-- The kinds of a child that carries the name of its parent. -/
def specKinds : List String := ["type_spec", "type_alias"]

/-- The kinds of a child that holds modifiers. -/
def modifierKinds : List String :=
  ["modifiers", "modifier", "visibility_modifier", "abstract_modifier", "final_modifier",
    "readonly_modifier"]

namespace Node

/-! ### Names -/

/-- The text of a node with its blanks collapsed, if anything is left. -/
def clean? (n : Node) (source : Text) : Option Text :=
  (n.text? source).bind fun t => t.collapse.nonEmpty?

/-- The declarators reached from a node by going down at most `depth` times. -/
def declarators : (depth : Nat) → Node → List Node
  | 0, _ => []
  | depth + 1, n =>
    match n.child? "declarator" with
    | some d => d :: declarators depth d
    | none => []

/-- The node that holds the name on a declarator: itself, or its name. -/
def nameHolder? (d : Node) : Option Node :=
  if identifierKinds.contains d.kind then some d else d.child? "name"

/-- The names of the children that carry the name of `n`. -/
def specNames (n : Node) (source : Text) : List Text :=
  (n.namedChildren.filter fun c => specKinds.contains c.kind).filterMap fun c =>
    (c.child? "name").bind (·.clean? source)

/-- The name of a declaration: its own, or that on its declarators, or those of the specs it
wraps.  A name that is found but blank is none at all. -/
def name? (n : Node) (source : Text) : Option Text :=
  match (n.child? "name").or ((n.declarators declaratorDepth).findSome? nameHolder?) with
  | some holder => holder.clean? source
  | none => Text.nonEmpty? ([',', ' '].intercalate (n.specNames source))

/-! ### Signatures -/

/-- The first child under `field`, on the node or on one of the declarators that can stand
above the one with the name. -/
def childAlong? (n : Node) (field : String) : Option Node :=
  (n :: n.declarators (declaratorDepth - 1)).findSome? (·.child? field)

def dropArrows : Text → Text
  | '-' :: '>' :: r => dropArrows r
  | t => t

/-- A parameter list as a line shows it. -/
def writtenParameters (t : Text) : Text :=
  let t := t.collapse
  Text.truncate signatureLimit (if t.head? = some '(' then t else '(' :: t ++ [')'])

/-- A result as a line shows it, without the arrow or colon before it; nothing if it is
blank. -/
def writtenResult (t : Text) : Text :=
  let t := Text.trim ((dropArrows t.collapse).dropWhile (· == ':'))
  if t = [] then [] else " -> ".toList ++ Text.truncate signatureLimit t

/-- What follows the name of a callable: its parameters and its result, as far as it has
them. -/
def signature (n : Node) (source : Text) : Text :=
  let parameters := (n.childAlong? "parameters").bind (·.text? source)
  let result := ((n.childAlong? "return_type").or (n.child? "result")).bind (·.text? source)
  (parameters.map writtenParameters).getD [] ++ (result.map writtenResult).getD []

/-! ### The rules -/

def labelled (label : String) (t : Text) : Text := label.toList ++ ':' :: ' ' :: t

/-- The words of a type's modifiers that are not annotations. -/
def modifiers (n : Node) (source : Text) : List Text :=
  let texts := (n.namedChildren.filter fun c => modifierKinds.contains c.kind).filterMap
    (·.text? source)
  (texts.flatMap Text.words).filter fun w => w.head? ≠ some '@'

/-- A callable: its name, with the signature if it is wanted. -/
def callable? (n : Node) (source : Text) (signatures : Bool) : Option Text :=
  (n.name? source).map fun name => if signatures then name ++ n.signature source else name

/-- A type: its modifiers and its name. -/
def typeLike? (n : Node) (source : Text) : Option Text :=
  (n.name? source).map fun name => [' '].intercalate (n.modifiers source ++ [name])

def openingTag? (n : Node) : Option Node :=
  (n.child? "start_tag").or ((n.childOfKind? "start_tag").or (n.childOfKind? "self_closing_tag"))

def tagName? (tag : Node) (source : Text) : Option Text :=
  ((tag.child? "tag_name").or (tag.childOfKind? "tag_name")).bind fun name =>
    (name.text? source).bind fun t => t.trim.nonEmpty?

/-- An element by its tag: the name and, if there are any, the number of attributes. -/
def tagged? (n : Node) (source : Text) : Option Text :=
  n.openingTag?.bind fun tag => (tag.tagName? source).map fun name =>
    let attributes := (tag.namedChildren.filter (·.kind == "attribute")).length
    if attributes = 0 then name else name ++ ' ' :: Text.counted attributes "attribute"

/-- The start of an element's source on one line, without its outer angle brackets. -/
def preview? (t : Text) : Option Text :=
  let flat := Text.trim (t.filter fun c => c ≠ '\n' && c ≠ '\r')
  let shown := Text.trimEnd ((flat.dropWhile (· == '<')).take previewLimit)
  (shown.dropEndWhile (· == '>')).nonEmpty?

/-- An element by the start of its source. -/
def previewed? (n : Node) (source : Text) : Option Text :=
  ((n.text? source).bind preview?).map fun t => '<' :: t ++ ['>']

/-- The selectors of a style rule. -/
def selectors? (n : Node) (source : Text) : Option Text :=
  ((n.child? "selectors").or (n.childOfKind? "selectors")).bind fun s =>
    match s.namedChildren.filterMap (·.clean? source) with
    | [] => s.clean? source
    | parts => some ([',', ' '].intercalate parts)

/-- A style rule: its selectors and the number of its declarations. -/
def styleRule? (n : Node) (source : Text) : Option Text :=
  (n.selectors? source).map fun selectors =>
    let declarations := ((n.childOfKind? "block").map fun b =>
      (b.namedChildren.filter (·.kind == "declaration")).length).getD 0
    selectors ++ ' ' :: Text.counted declarations "declaration"

/-- A call: the callee and empty parentheses. -/
def invocation? (n : Node) (source : Text) : Option Text :=
  (["function", "method", "name"].findSome? n.child?).bind fun callee =>
    (callee.clean? source).map (· ++ ['(', ')'])

/-- The line of a node. -/
def line? (n : Node) (source : Text) (signatures : Bool) : Option Text :=
  let label := labelOf n.kind
  match ruleOf n.kind with
  | .callable => (n.callable? source signatures).map (labelled label)
  | .typeLike => (n.typeLike? source).map (labelled label)
  | .element =>
    ((n.tagged? source).map (labelled label)).or ((n.previewed? source).map (labelled "Element"))
  | .styleRule => (n.styleRule? source).map (labelled label)
  | .invocation => (n.invocation? source).map (labelled label)
  | .named => (n.name? source).map (labelled label)

/-! ### Small facts -/

theorem name?_ne_nil {n : Node} {source name : Text} (h : n.name? source = some name) :
    name ≠ [] := by
  have key : ∀ {t s : Text}, t.nonEmpty? = some s → s ≠ [] := by
    intro t s hs
    unfold Text.nonEmpty? at hs
    split at hs <;> simp_all
  unfold name? at h
  split at h
  · obtain ⟨t, _, ht⟩ := Option.bind_eq_some_iff.1 h
    exact key ht
  · exact key h

/-- Whether a node has a line does not depend on the wish for signatures. -/
theorem isSome_line? (n : Node) (source : Text) :
    (n.line? source true).isSome = (n.line? source false).isSome := by
  simp only [line?]
  split <;> simp [callable?]

end Node

end Outline
