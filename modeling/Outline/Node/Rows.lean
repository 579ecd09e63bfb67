import Outline.Node.Basic

/-!
# Trees written as rows

A tree as a flat table: one row a node in pre-order, each with its depth.

* `Row` — a node without its children;
* `Node.ofRows?` — the tree of a table.  The table is read from its end, so that the children
  of a row are the deeper trees already built just behind it.
-/

namespace Outline

/-- One line of a flat tree: a node's depth and what it holds besides its children. -/
structure Row where
  depth : Nat
  kind : String
  start : Nat
  stop : Nat
  field : Option String
  named : Bool

namespace Row

/-- Puts a row in front of the trees behind it, each with its depth: the deeper ones become
its children. -/
def graft (row : Row × Nat) (trees : List (Nat × Node)) : List (Nat × Node) :=
  let (r, id) := row
  let (inner, outer) := trees.span fun t => r.depth < t.1
  (r.depth, ⟨id, r.kind, r.field, r.named, r.start, r.stop, inner.map (·.2)⟩) :: outer

end Row

/-- The tree of a table whose first row is the root. -/
def Node.ofRows? (rows : List Row) : Option Node :=
  (rows.zipIdx.foldr Row.graft []).head?.map (·.2)

end Outline
