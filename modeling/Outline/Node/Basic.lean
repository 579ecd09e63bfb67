import Outline.Text.Utf8

/-!
# Syntax trees

A node of a concrete syntax tree, as a grammar builds it for a source text.

* `Node` — a kind, a byte range, the field under which the parent holds it, and children;
  anonymous nodes (punctuation and keywords) stand among the children;
* `Node.namedChildren`, `Node.child?`, `Node.childOfKind?`, `Node.text?` — what a reader asks
  of one node;
* `Node.size` — the number of nodes of a tree, the measure of every walk;
* `Node.descendants`, `Node.preorder` — the nodes under a node, and these with the node itself, a
  parent before its children and siblings in order.
-/

namespace Outline

/-- A node of a syntax tree.  `id` is its place in the tree's pre-order, so that equal nodes in
different places stay apart. -/
structure Node where
  id : Nat
  kind : String
  field : Option String
  named : Bool
  start : Nat
  stop : Nat
  children : List Node

namespace Node

/-! ### Questions to one node -/

/-- The children that are not anonymous, in order. -/
def namedChildren (n : Node) : List Node := n.children.filter (·.named)

/-- The first child, named or not, that stands under `field`. -/
def child? (n : Node) (field : String) : Option Node :=
  n.children.find? (·.field == some field)

/-- The first named child of a kind. -/
def childOfKind? (n : Node) (kind : String) : Option Node :=
  n.namedChildren.find? (·.kind == kind)

/-- The source text of a node, if its range is one. -/
def text? (n : Node) (source : Text) : Option Text := source.slice n.start n.stop

/-! ### Size -/

mutual

/-- The number of nodes of a tree. -/
def size : Node → Nat
  | ⟨_, _, _, _, _, _, children⟩ => 1 + sizeAll children

/-- The number of nodes of a list of trees. -/
def sizeAll : List Node → Nat
  | [] => 0
  | n :: ns => size n + sizeAll ns

end

theorem size_eq (n : Node) : n.size = 1 + sizeAll n.children := by cases n; simp [size]

theorem size_pos (n : Node) : 0 < n.size := by rw [size_eq]; omega

theorem sizeAll_append (ns ms : List Node) : sizeAll (ns ++ ms) = sizeAll ns + sizeAll ms := by
  induction ns with
  | nil => simp [sizeAll]
  | cons n ns ih => simp only [List.cons_append, sizeAll, ih]; omega

theorem sizeAll_filter_le (p : Node → Bool) (ns : List Node) :
    sizeAll (ns.filter p) ≤ sizeAll ns := by
  induction ns with
  | nil => simp [sizeAll]
  | cons n ns ih =>
    simp only [List.filter_cons]
    split <;> simp only [sizeAll] <;> omega

/-! ### Pre-order -/

mutual

/-- The nodes under a node, in pre-order. -/
def descendants : Node → List Node
  | ⟨_, _, _, _, _, _, children⟩ => preorderAll children

/-- The nodes of a list of trees, in pre-order. -/
def preorderAll : List Node → List Node
  | [] => []
  | n :: ns => n :: descendants n ++ preorderAll ns

end

/-- A node and the nodes under it, in pre-order. -/
def preorder (n : Node) : List Node := n :: n.descendants

theorem descendants_eq (n : Node) : n.descendants = preorderAll n.children := by
  cases n; simp [descendants]

theorem preorderAll_append (ns ms : List Node) :
    preorderAll (ns ++ ms) = preorderAll ns ++ preorderAll ms := by
  induction ns with
  | nil => simp [preorderAll]
  | cons n ns ih => simp [preorderAll, ih]

end Node

end Outline
