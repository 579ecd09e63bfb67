import Outline.Proofs.Walks

/-!
# The places of named nodes

A place in a tree is the list of the numbers of the children that lead to it, counted among the named
ones.  The walk along named children is told by places, so that equal nodes stay apart.

* `Node.Reaches` — one or more steps from a node to a named child;
* `Node.at?` — the node at a place;
* `Node.located` — the nodes that named children lead to, with their places, in pre-order;
* `Node.mem_located_iff`, `Node.pairwise_located` — these are all places but the start's own, each
  once and in lexicographic order, which puts a node before what is below it;
* `Node.collectNamed_first` — the walk finds the nodes at the first places of the kinds.
-/

namespace Outline.Node

/-- `n.Reaches d`: one or more steps from a node to a named child lead from `n` to `d`. -/
inductive Reaches : Node → Node → Prop
  | child {n c : Node} : c ∈ n.namedChildren → Reaches n c
  | further {n c d : Node} : c ∈ n.namedChildren → Reaches c d → Reaches n d

/-- The node at a place. -/
def at? : Node → List Nat → Option Node
  | n, [] => some n
  | n, i :: place => (n.namedChildren[i]?).bind fun c => at? c place

mutual

/-- The nodes that named children lead to from a node, each with its place, in pre-order. -/
def located : Node → List (List Nat × Node)
  | ⟨_, _, _, _, _, _, children⟩ => locatedAll 0 children

/-- The same of a list of trees, the first named one of which has the number `i`. -/
def locatedAll (i : Nat) : List Node → List (List Nat × Node)
  | [] => []
  | n :: ns =>
    if n.named then
      ([i], n) :: (located n).map (fun p => (i :: p.1, p.2)) ++ locatedAll (i + 1) ns
    else locatedAll i ns

end

/-- A child with its number, and what it leads to. -/
def branch (c : Node × Nat) : List (List Nat × Node) :=
  ([c.2], c.1) :: (located c.1).map fun p => (c.2 :: p.1, p.2)

theorem locatedAll_eq (i : Nat) (ns : List Node) :
    locatedAll i ns = ((ns.filter (·.named)).zipIdx i).flatMap branch := by
  induction ns generalizing i with
  | nil => rfl
  | cons n ns ih =>
    rw [locatedAll, List.filter_cons]
    split
    · rw [List.zipIdx_cons, List.flatMap_cons, ← ih]
      rfl
    · exact ih i

theorem located_eq (n : Node) : n.located = n.namedChildren.zipIdx.flatMap branch := by
  cases n
  rw [located, locatedAll_eq, namedChildren]

theorem map_snd_locatedAll {ns : List Node} (h : ∀ c ∈ ns, c.located.map (·.2) = c.reached)
    (i : Nat) : (locatedAll i ns).map (·.2) = reachedAll ns := by
  induction ns generalizing i with
  | nil => rfl
  | cons n ns ih =>
    have hns := ih fun c hc => h c (List.mem_cons_of_mem n hc)
    rw [locatedAll, reachedAll, ← h n List.mem_cons_self]
    split
    · rw [List.map_append, List.map_cons, List.map_map, hns]
      rfl
    · exact hns i

/-- Without their places these are the nodes that named children lead to. -/
theorem map_snd_located (n : Node) : n.located.map (·.2) = n.reached := by
  induction n using childInduction with
  | step n ih =>
    cases n
    exact map_snd_locatedAll ih 0

/-- **Every place but the start's own is there**, with the node at it. -/
theorem mem_located_iff (n : Node) (place : List Nat) (d : Node) :
    (place, d) ∈ n.located ↔ place ≠ [] ∧ n.at? place = some d := by
  induction n using childInduction generalizing place d with
  | step n ih =>
    have hchild : ∀ {i : Nat} {c : Node}, n.namedChildren[i]? = some c → c ∈ n.children :=
      fun h => (List.mem_filter.1 (List.mem_of_getElem? h)).1
    rw [located_eq, List.mem_flatMap]
    constructor
    · rintro ⟨⟨c, i⟩, hc, hmem⟩
      have hc := List.mem_zipIdx_iff_getElem?.1 hc
      rcases List.mem_cons.1 hmem with hself | hmem
      · cases hself
        refine ⟨List.cons_ne_nil _ _, ?_⟩
        rw [at?, hc]
        rfl
      · obtain ⟨⟨q, e⟩, hq, heq⟩ := List.mem_map.1 hmem
        cases heq
        refine ⟨List.cons_ne_nil _ _, ?_⟩
        rw [at?, hc]
        exact ((ih c (hchild hc) q e).1 hq).2
    · rintro ⟨hne, hat⟩
      obtain ⟨i, q, rfl⟩ := List.exists_cons_of_ne_nil hne
      rw [at?] at hat
      obtain ⟨c, hc, hat⟩ := Option.bind_eq_some_iff.1 hat
      refine ⟨(c, i), List.mem_zipIdx_iff_getElem?.2 hc, ?_⟩
      by_cases hq : q = []
      · subst hq
        cases hat
        exact List.mem_cons_self
      · exact List.mem_cons_of_mem _ (List.mem_map.2 ⟨(q, d), (ih c (hchild hc) q d).2 ⟨hq, hat⟩, rfl⟩)

theorem exists_cons_of_mem_branch {c : Node × Nat} {p : List Nat × Node} (h : p ∈ branch c) :
    ∃ place, p.1 = c.2 :: place := by
  rcases List.mem_cons.1 h with rfl | h
  · exact ⟨[], rfl⟩
  · obtain ⟨q, -, rfl⟩ := List.mem_map.1 h
    exact ⟨q.1, rfl⟩

/-- **The places come in lexicographic order**: a node before what is below it, and all of this before
the next sibling. -/
theorem pairwise_located (n : Node) : n.located.Pairwise fun a b => a.1 < b.1 := by
  induction n using childInduction with
  | step n ih =>
    rw [located_eq, List.pairwise_flatMap]
    constructor
    · rintro ⟨c, i⟩ hc
      have hc := List.mem_zipIdx_iff_getElem?.1 hc
      rw [branch, List.pairwise_cons, List.pairwise_map]
      constructor
      · intro p hp
        obtain ⟨⟨q, d⟩, hq, rfl⟩ := List.mem_map.1 hp
        obtain ⟨j, q, rfl⟩ := List.exists_cons_of_ne_nil ((mem_located_iff c q d).1 hq).1
        exact List.cons_lt_cons_self.2 (List.nil_lt_cons j q)
      · have hmem := (List.mem_filter.1 (List.mem_of_getElem? hc)).1
        exact (ih c hmem).imp fun h => List.cons_lt_cons_self.2 h
    · have hnumbers : n.namedChildren.zipIdx.Pairwise fun a b => a.2 < b.2 := by
        rw [← List.pairwise_map, List.zipIdx_map_snd]
        exact List.pairwise_lt_range'
      refine hnumbers.imp ?_
      intro a b hlt p hp q hq
      obtain ⟨x, hx⟩ := exists_cons_of_mem_branch hp
      obtain ⟨y, hy⟩ := exists_cons_of_mem_branch hq
      rw [hx, hy]
      exact List.Lex.rel hlt

/-! ### Steps and places -/

theorem reaches_iff_exists_place (n d : Node) :
    n.Reaches d ↔ ∃ place, place ≠ [] ∧ n.at? place = some d := by
  constructor
  · intro h
    induction h with
    | child hc =>
      obtain ⟨i, hi⟩ := List.mem_iff_getElem?.1 hc
      refine ⟨[i], List.cons_ne_nil _ _, ?_⟩
      rw [at?, hi]
      rfl
    | further hc _ ih =>
      obtain ⟨i, hi⟩ := List.mem_iff_getElem?.1 hc
      obtain ⟨place, -, hat⟩ := ih
      refine ⟨i :: place, List.cons_ne_nil _ _, ?_⟩
      rw [at?, hi]
      exact hat
  · rintro ⟨place, hne, hat⟩
    induction place generalizing n with
    | nil => exact absurd rfl hne
    | cons i place ih =>
      rw [at?] at hat
      obtain ⟨c, hc, hat⟩ := Option.bind_eq_some_iff.1 hat
      have hc := List.mem_of_getElem? hc
      by_cases hplace : place = []
      · subst hplace
        cases hat
        exact Reaches.child hc
      · exact Reaches.further hc (ih c hplace hat)

/-- Steps lead to smaller trees, so never back to the start. -/
theorem Reaches.size_lt {n d : Node} (h : n.Reaches d) : d.size < n.size := by
  have hchild : ∀ {n c : Node}, c ∈ n.namedChildren → c.size < n.size := by
    intro n c hc
    have hle := size_le_sizeAll (List.mem_filter.1 hc).1
    rw [size_eq n]
    omega
  induction h with
  | child hc => exact hchild hc
  | further hc _ ih => exact Nat.lt_trans ih (hchild hc)

theorem mem_reached_iff (n d : Node) : d ∈ n.reached ↔ n.Reaches d := by
  rw [reaches_iff_exists_place, ← map_snd_located, List.mem_map]
  constructor
  · rintro ⟨⟨place, e⟩, hp, rfl⟩
    exact ⟨place, (mem_located_iff n place e).1 hp⟩
  · rintro ⟨place, hplace⟩
    exact ⟨(place, d), (mem_located_iff n place d).2 hplace, rfl⟩

/-- **The walk along named children finds the first nodes of the kinds in pre-order.**  The places of
these nodes below the start are listed once each in lexicographic order, and the walk returns the
nodes at the first `limit` of them: the first of the nodes of the kinds that steps to named children
lead to, and never the start. -/
theorem collectNamed_first (n : Node) (kinds : List String) :
    ∃ places : List (List Nat),
      places.Pairwise (· < ·) ∧
      (∀ place, place ∈ places ↔ place ≠ [] ∧ ∃ d, n.at? place = some d ∧ d.isOf kinds = true) ∧
      (∀ d, (∃ place ∈ places, n.at? place = some d) ↔ n.Reaches d ∧ d.isOf kinds = true) ∧
      ∀ limit,
        (n.collectNamed kinds limit).map some = (places.take limit).map n.at? ∧
        n.collectNamed kinds limit = (n.reached.filter (isOf kinds)).take limit ∧
        n ∉ n.collectNamed kinds limit := by
  have hmem : ∀ place, place ∈ ((n.located.filter fun p => p.2.isOf kinds).map (·.1)) ↔
      place ≠ [] ∧ ∃ d, n.at? place = some d ∧ d.isOf kinds = true := by
    intro place
    rw [List.mem_map]
    constructor
    · rintro ⟨⟨q, d⟩, hq, rfl⟩
      obtain ⟨hq, hd⟩ := List.mem_filter.1 hq
      obtain ⟨hne, hat⟩ := (mem_located_iff n q d).1 hq
      exact ⟨hne, d, hat, hd⟩
    · rintro ⟨hne, d, hat, hd⟩
      exact ⟨(place, d), List.mem_filter.2 ⟨(mem_located_iff n place d).2 ⟨hne, hat⟩, hd⟩, rfl⟩
  refine ⟨_, (List.pairwise_map.2 (n.pairwise_located.filter _)), hmem, ?_, ?_⟩
  · intro d
    rw [reaches_iff_exists_place]
    constructor
    · rintro ⟨place, hplace, hat⟩
      obtain ⟨hne, e, he, hkind⟩ := (hmem place).1 hplace
      rw [hat] at he
      cases he
      exact ⟨⟨place, hne, hat⟩, hkind⟩
    · rintro ⟨⟨place, hne, hat⟩, hkind⟩
      exact ⟨place, (hmem place).2 ⟨hne, d, hat, hkind⟩, hat⟩
  · intro limit
    have hfound := collectNamed_eq n kinds limit
    refine ⟨?_, hfound, ?_⟩
    · -- the node at the place of a located node is this node
      have hat : ∀ p ∈ n.located.filter fun p => p.2.isOf kinds, n.at? p.1 = some p.2 := by
        rintro ⟨place, d⟩ hp
        exact ((mem_located_iff n place d).1 (List.mem_filter.1 hp).1).2
      rw [hfound, ← map_snd_located, List.filter_map, ← List.map_take, ← List.map_take,
        List.map_map, List.map_map]
      exact List.map_congr_left fun p hp => (hat p (List.mem_of_mem_take hp)).symm
    · intro hself
      rw [hfound] at hself
      have hreach := (mem_reached_iff n n).1 (List.mem_filter.1 (List.mem_of_mem_take hself)).1
      exact Nat.lt_irrefl _ hreach.size_lt

end Outline.Node
