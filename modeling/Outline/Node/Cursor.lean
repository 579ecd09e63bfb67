import Outline.Node.Basic

/-!
# Cursors

A place in a tree together with the way back: a cursor moves to the first child, to the next
sibling and to the parent, and never leaves the tree it was set on.

* `Cursor` — the node in focus, its later siblings, and for each ancestor its later siblings;
* `Cursor.firstChild?`, `Cursor.nextSibling?`, `Cursor.parent?` — the three moves;
* `Cursor.next?` — the next place in pre-order, by going down, else on, else up until a
  sibling follows;
* `Cursor.remaining` — the number of nodes from the focus on; `next?` lowers it
  (`remaining_next?_lt`), so a walk along `next?` ends.
-/

namespace Outline

/-- A place in a tree. -/
structure Cursor where
  focus : Node
  right : List Node
  above : List (Node × List Node)

namespace Cursor

/-- The cursor on the root of a tree. -/
def ofNode (n : Node) : Cursor := ⟨n, [], []⟩

/-! ### Moves -/

/-- The first child of the focus. -/
def firstChild? (c : Cursor) : Option Cursor :=
  match c.focus.children with
  | [] => none
  | n :: ns => some ⟨n, ns, (c.focus, c.right) :: c.above⟩

/-- The sibling after the focus. -/
def nextSibling? (c : Cursor) : Option Cursor :=
  match c.right with
  | [] => none
  | n :: ns => some ⟨n, ns, c.above⟩

/-- The node that holds the focus. -/
def parent? (c : Cursor) : Option Cursor :=
  match c.above with
  | [] => none
  | (p, ns) :: up => some ⟨p, ns, up⟩

/-- The first of `right`, or else the next place behind the nearest ancestor that has a later
sibling. -/
def leaveFrom? : (right : List Node) → (above : List (Node × List Node)) → Option Cursor
  | n :: ns, above => some ⟨n, ns, above⟩
  | [], (_, ns) :: up => leaveFrom? ns up
  | [], [] => none

/-- The next sibling, or that of the nearest ancestor which has one. -/
def leave? (c : Cursor) : Option Cursor := leaveFrom? c.right c.above

/-- Leaving is going on to the next sibling, or else leaving the parent. -/
theorem leave?_eq (c : Cursor) : c.leave? = c.nextSibling?.or (c.parent?.bind leave?) := by
  rcases c with ⟨_, _ | ⟨_, _⟩, _ | ⟨⟨_, _⟩, _⟩⟩ <;> rfl

/-- The next place in pre-order. -/
def next? (c : Cursor) : Option Cursor := c.firstChild?.or c.leave?

/-! ### What is left of a walk -/

/-- The number of nodes behind the ancestors of a place. -/
def behind : List (Node × List Node) → Nat
  | [] => 0
  | (_, ns) :: up => Node.sizeAll ns + behind up

/-- The number of nodes from the focus on, in pre-order. -/
def remaining (c : Cursor) : Nat := c.focus.size + Node.sizeAll c.right + behind c.above

theorem remaining_firstChild?_lt {c d : Cursor} (h : c.firstChild? = some d) :
    d.remaining < c.remaining := by
  unfold firstChild? at h
  split at h
  · cases h
  · rename_i n ns hn
    cases h
    simp only [remaining, c.focus.size_eq, hn, Node.sizeAll, behind]
    omega

theorem remaining_leaveFrom?_le {right : List Node} {above : List (Node × List Node)}
    {d : Cursor} (h : leaveFrom? right above = some d) :
    d.remaining ≤ Node.sizeAll right + behind above := by
  induction above generalizing right with
  | nil =>
    cases right with
    | nil => cases h
    | cons n ns =>
      cases h
      simp only [remaining, Node.sizeAll]
      omega
  | cons a up ih =>
    cases right with
    | nil =>
      have := ih h
      simp only [behind]
      omega
    | cons n ns =>
      cases h
      simp only [remaining, Node.sizeAll]
      omega

theorem remaining_leave?_lt {c d : Cursor} (h : c.leave? = some d) :
    d.remaining < c.remaining := by
  have := remaining_leaveFrom?_le h
  have := c.focus.size_pos
  simp only [remaining] at *
  omega

/-- The walk's measure: each step leaves fewer nodes. -/
theorem remaining_next?_lt {c d : Cursor} (h : c.next? = some d) : d.remaining < c.remaining := by
  unfold next? at h
  cases hf : c.firstChild? with
  | some e =>
    rw [hf] at h
    cases h
    exact remaining_firstChild?_lt hf
  | none =>
    rw [hf] at h
    exact remaining_leave?_lt (by simpa using h)

end Cursor

end Outline
