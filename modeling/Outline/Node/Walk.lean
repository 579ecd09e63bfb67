import Outline.Node.Cursor

/-!
# Walks over a tree

Two ways to collect the first nodes of given kinds under a node, in pre-order:

* `Node.collect` moves a cursor over every node below the start and takes the named ones of a
  wanted kind;
* `Node.collectNamed` keeps a stack of trees still to visit and only ever descends through
  named children.

Neither returns the start itself, and both stop as soon as `limit` nodes are found.  They
differ where a named node lies under an anonymous one: only the first reaches it.
-/

namespace Outline

/-- Whether a node is of one of the kinds. -/
def Node.isOf (kinds : List String) (n : Node) : Bool := kinds.contains n.kind

namespace Cursor

/-- The first `limit` named nodes of the kinds, from the focus on. -/
def collect (kinds : List String) : (limit : Nat) → Cursor → List Node
  | 0, _ => []
  | limit + 1, c =>
    let taken := c.focus.named && c.focus.isOf kinds
    let left := if taken then limit else limit + 1
    let found :=
      match _h : c.next? with
      | some d => collect kinds left d
      | none => []
    if taken then c.focus :: found else found
termination_by _ c => c.remaining
decreasing_by exact remaining_next?_lt _h

end Cursor

namespace Node

/-- The first `limit` named nodes of the kinds among all nodes below `n`. -/
def collect (n : Node) (kinds : List String) (limit : Nat) : List Node :=
  match (Cursor.ofNode n).firstChild? with
  | some c => c.collect kinds limit
  | none => []

/-- The first `limit` nodes of the kinds in a stack of trees, reached through named children
only. -/
def collectStack (kinds : List String) : (limit : Nat) → List Node → List Node
  | 0, _ => []
  | _ + 1, [] => []
  | limit + 1, n :: stack =>
    if n.isOf kinds then n :: collectStack kinds limit (n.namedChildren ++ stack)
    else collectStack kinds (limit + 1) (n.namedChildren ++ stack)
termination_by _ stack => sizeAll stack
decreasing_by
  all_goals
    have := sizeAll_filter_le (·.named) n.children
    simp only [sizeAll_append, sizeAll, size_eq, namedChildren]
    omega

/-- The first `limit` nodes of the kinds that `n` reaches through named children. -/
def collectNamed (n : Node) (kinds : List String) (limit : Nat) : List Node :=
  collectStack kinds limit n.namedChildren

end Node

end Outline
