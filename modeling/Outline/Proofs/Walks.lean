import Mathlib.Data.List.Flatten
import Mathlib.Tactic.ByContra
import Outline.Node.Walk

/-!
# What the two walks find

Both walks of `Outline.Node.Walk` are tied to plain recursions over the tree, and then to each
other:

* `Node.Below` — the relation between a node and the nodes under it, at any depth;
* `Node.candidates` — the named nodes of given kinds under a node, in pre-order;
* `Node.reached` — the nodes that named children lead to, in pre-order;
* `Cursor.ahead` — the nodes that a cursor has still to visit;
* `Node.collect_eq` — the cursor finds the first candidates;
* `Node.collectNamed_eq` — the stack finds the first nodes of the kinds among the reached ones;
* `Node.collect_eq_collectNamed_iff` — the walks agree on all kinds and limits exactly if no
  named node is hidden behind an anonymous one.
-/

namespace Outline

namespace Node

/-! ### Places under a node -/

/-- `n.Below d`: the node `d` is a child of `n`, or lies below one. -/
inductive Below : Node → Node → Prop
  | child {n c : Node} : c ∈ n.children → Below n c
  | deeper {n c d : Node} : c ∈ n.children → Below c d → Below n d

theorem size_le_sizeAll {c : Node} {ns : List Node} (h : c ∈ ns) : c.size ≤ sizeAll ns := by
  induction ns with
  | nil => cases h
  | cons n ns ih =>
    rw [sizeAll]
    rcases List.mem_cons.1 h with rfl | h
    · omega
    · have hle := ih h
      omega

theorem Below.trans {n m d : Node} (h : n.Below m) (hd : m.Below d) : n.Below d := by
  induction h with
  | child hc => exact Below.deeper hc hd
  | deeper hc _ ih => exact Below.deeper hc (ih hd)

/-- What holds of a node as soon as it holds of its children holds of every node. -/
@[elab_as_elim]
theorem childInduction {P : Node → Prop} (step : ∀ n, (∀ c ∈ n.children, P c) → P n)
    (n : Node) : P n :=
  step n fun c _hc => childInduction step c
termination_by n.size
decreasing_by
  have hle := size_le_sizeAll _hc
  rw [size_eq n]
  omega

theorem preorderAll_eq_flatMap (ns : List Node) : preorderAll ns = ns.flatMap preorder := by
  induction ns with
  | nil => rfl
  | cons n ns ih =>
    rw [preorderAll, ih, List.flatMap_cons]
    rfl

theorem descendants_eq_flatMap (n : Node) : n.descendants = n.children.flatMap preorder := by
  rw [descendants_eq, preorderAll_eq_flatMap]

theorem mem_descendants_iff (n d : Node) : d ∈ n.descendants ↔ n.Below d := by
  induction n using childInduction with
  | step n ih =>
    rw [descendants_eq_flatMap, List.mem_flatMap]
    constructor
    · rintro ⟨c, hc, hd⟩
      rcases List.mem_cons.1 hd with rfl | hd
      · exact Below.child hc
      · exact Below.deeper hc ((ih c hc).1 hd)
    · intro h
      cases h with
      | child hc => exact ⟨d, hc, List.mem_cons_self⟩
      | deeper hc hd => exact ⟨_, hc, List.mem_cons_of_mem _ ((ih _ hc).2 hd)⟩

/-! ### The plain meaning of the cursor's walk -/

/-- The named nodes of the kinds under a node, in pre-order. -/
def candidates (n : Node) (kinds : List String) : List Node :=
  n.descendants.filter fun d => d.named && d.isOf kinds

end Node

namespace Cursor

/-- The nodes that a cursor has still to visit: its focus and what is under it, the later
siblings, and what lies behind each ancestor. -/
def ahead (c : Cursor) : List Node :=
  c.focus.preorder ++ Node.preorderAll c.right ++ c.above.flatMap fun a => Node.preorderAll a.2

theorem ahead_leaveFrom? (right : List Node) (above : List (Node × List Node)) :
    ((leaveFrom? right above).map ahead).getD [] =
      Node.preorderAll right ++ above.flatMap fun a => Node.preorderAll a.2 := by
  induction above generalizing right with
  | nil =>
    cases right with
    | nil => rfl
    | cons n ns => simp [leaveFrom?, ahead, Node.preorderAll, Node.preorder]
  | cons a up ih =>
    cases right with
    | nil =>
      rw [leaveFrom?, ih, List.flatMap_cons]
      rfl
    | cons n ns => simp [leaveFrom?, ahead, Node.preorderAll, Node.preorder]

/-- **One step of the cursor.**  It visits the focus, and the next place has all the rest
ahead. -/
theorem ahead_eq (c : Cursor) : c.ahead = c.focus :: (c.next?.map ahead).getD [] := by
  rcases c with ⟨n, right, above⟩
  cases hn : n.children with
  | nil =>
    have hnext : next? ⟨n, right, above⟩ = leaveFrom? right above := by
      simp [next?, firstChild?, leave?, hn]
    rw [hnext, ahead_leaveFrom?]
    simp [ahead, Node.preorder, Node.descendants_eq, hn, Node.preorderAll]
  | cons m ms =>
    have hnext : next? ⟨n, right, above⟩ = some ⟨m, ms, (n, right) :: above⟩ := by
      simp [next?, firstChild?, hn]
    rw [hnext]
    simp [ahead, Node.preorder, Node.descendants_eq, hn, Node.preorderAll]

/-- The walk at one place: the focus if it is wanted, and what the walk from the next place
finds under the limit that is left. -/
theorem collect_succ (kinds : List String) (limit : Nat) (c : Cursor) :
    c.collect kinds (limit + 1) =
      if c.focus.named && c.focus.isOf kinds then
        c.focus :: (c.next?.map (collect kinds limit)).getD []
      else (c.next?.map (collect kinds (limit + 1))).getD [] := by
  rw [collect]
  split
  -- whether the focus is wanted or not, the walk goes on from the next place, if there is one
  all_goals
    split
    · rename_i d hd
      rw [hd]
      rfl
    · rename_i hd
      rw [hd]
      rfl

/-- The walk from a place on finds the first candidates ahead. -/
theorem collect_eq (kinds : List String) (limit : Nat) (c : Cursor) :
    c.collect kinds limit = (c.ahead.filter fun d => d.named && d.isOf kinds).take limit := by
  induction hr : c.remaining using Nat.strongRecOn generalizing limit c with
  | _ r ih =>
    have hnext : ∀ k, (c.next?.map (collect kinds k)).getD [] =
        (((c.next?.map ahead).getD []).filter fun d => d.named && d.isOf kinds).take k := by
      intro k
      cases hd : c.next? with
      | none => simp
      | some d => exact ih d.remaining (hr ▸ remaining_next?_lt hd) k d rfl
    cases limit with
    | zero => rw [collect, List.take_zero]
    | succ limit =>
      rw [collect_succ, hnext, hnext, ahead_eq, List.filter_cons]
      split
      · rw [List.take_succ_cons]
      · rfl

end Cursor

namespace Node

/-- **The cursor's walk.**  It finds the first candidates under its start, and nothing else. -/
theorem collect_eq (n : Node) (kinds : List String) (limit : Nat) :
    n.collect kinds limit = (n.candidates kinds).take limit := by
  have hfirst : n.collect kinds limit =
      (((Cursor.ofNode n).firstChild?.map (Cursor.collect kinds limit)).getD []) := by
    rw [collect]
    cases (Cursor.ofNode n).firstChild? <;> rfl
  rw [hfirst, candidates, descendants_eq]
  cases hn : n.children with
  | nil => simp [Cursor.firstChild?, Cursor.ofNode, hn, preorderAll]
  | cons c cs =>
    simp only [Cursor.firstChild?, Cursor.ofNode, hn, Option.map_some, Option.getD_some]
    rw [Cursor.collect_eq]
    simp [Cursor.ahead, preorderAll, preorder]

/-! ### The plain meaning of the stack's walk -/

mutual

/-- The nodes that named children lead to from a node, in pre-order. -/
def reached : Node → List Node
  | ⟨_, _, _, _, _, _, children⟩ => reachedAll children

/-- The named ones of a list of trees and what they lead to, in pre-order. -/
def reachedAll : List Node → List Node
  | [] => []
  | n :: ns => (if n.named then n :: reached n else []) ++ reachedAll ns

end

theorem reached_eq (n : Node) : n.reached = reachedAll n.children := by
  cases n
  rw [reached]

theorem reachedAll_eq_flatMap (ns : List Node) :
    reachedAll ns = ns.flatMap fun c => if c.named then c :: c.reached else [] := by
  induction ns with
  | nil => rfl
  | cons n ns ih => rw [reachedAll, ih, List.flatMap_cons]

/-- Anonymous trees are passed over as a whole. -/
theorem reachedAll_eq_filter (ns : List Node) :
    reachedAll ns = (ns.filter (·.named)).flatMap fun c => c :: c.reached := by
  induction ns with
  | nil => rfl
  | cons n ns ih =>
    rw [reachedAll, ih, List.filter_cons]
    cases n.named <;> rfl

theorem reached_eq_flatMap (n : Node) :
    n.reached = n.namedChildren.flatMap fun c => c :: c.reached := by
  rw [reached_eq, reachedAll_eq_filter, namedChildren]

/-- What a stack of trees holds is found tree after tree. -/
theorem collectStack_eq (kinds : List String) (limit : Nat) (stack : List Node) :
    collectStack kinds limit stack =
      ((stack.flatMap fun n => n :: n.reached).filter (isOf kinds)).take limit := by
  fun_induction collectStack kinds limit stack with
  | case1 stack => rw [List.take_zero]
  | case2 limit => rfl
  | case3 limit n stack hn ih =>
    rw [ih, List.flatMap_append, ← reached_eq_flatMap, List.flatMap_cons, List.cons_append,
      List.filter_cons_of_pos hn, List.take_succ_cons]
  | case4 limit n stack hn ih =>
    rw [ih, List.flatMap_append, ← reached_eq_flatMap, List.flatMap_cons, List.cons_append,
      List.filter_cons_of_neg hn]

/-- **The stack's walk.**  It finds the first nodes of the kinds that named children lead to. -/
theorem collectNamed_eq (n : Node) (kinds : List String) (limit : Nat) :
    n.collectNamed kinds limit = (n.reached.filter (isOf kinds)).take limit := by
  rw [collectNamed, collectStack_eq, reached_eq_flatMap]

/-! ### Where the two agree -/

/-- Lists put together from smaller parts on one side agree only part by part. -/
theorem flatMap_eq_flatMap_iff {α β : Type} {f g : α → List β} (xs : List α)
    (h : ∀ x ∈ xs, (f x).Sublist (g x)) :
    xs.flatMap f = xs.flatMap g ↔ ∀ x ∈ xs, f x = g x := by
  induction xs with
  | nil => simp
  | cons x xs ih =>
    have hx := h x List.mem_cons_self
    have hxs : ∀ y ∈ xs, (f y).Sublist (g y) := fun y hy => h y (List.mem_cons_of_mem x hy)
    rw [List.flatMap_cons, List.flatMap_cons, List.forall_mem_cons, ← ih hxs]
    constructor
    · intro he
      have hl := congrArg List.length he
      rw [List.length_append, List.length_append] at hl
      have h1 := hx.length_le
      have h2 := (List.Sublist.flatMap_right xs hxs).length_le
      have hfx : f x = g x := hx.eq_of_length (by omega)
      rw [hfx] at he
      exact ⟨hfx, List.append_cancel_left he⟩
    · rintro ⟨hfx, hfxs⟩
      rw [hfx, hfxs]

theorem branch_sublist {c : Node} (h : c.reached.Sublist (c.descendants.filter (·.named))) :
    (if c.named then c :: c.reached else []).Sublist (c.preorder.filter (·.named)) := by
  rw [preorder, List.filter_cons]
  split
  · exact h.cons_cons c
  · exact List.nil_sublist _

/-- What named children lead to is named, and comes in the same order. -/
theorem reached_sublist (n : Node) : n.reached.Sublist (n.descendants.filter (·.named)) := by
  induction n using childInduction with
  | step n ih =>
    rw [reached_eq, reachedAll_eq_flatMap, descendants_eq_flatMap, List.filter_flatMap]
    exact List.Sublist.flatMap_right _ fun c hc => branch_sublist (ih c hc)

/-- Named children lead to every named node below exactly if none of these has an anonymous node
above it. -/
theorem reached_eq_iff (n : Node) :
    n.reached = n.descendants.filter (·.named) ↔
      ∀ a d, n.Below a → a.Below d → d.named = true → a.named = true := by
  induction n using childInduction with
  | step n ih =>
    have hsub : ∀ c ∈ n.children, (if c.named then c :: c.reached else []).Sublist
        (c.preorder.filter (·.named)) := fun c _ => branch_sublist (reached_sublist c)
    rw [reached_eq, reachedAll_eq_flatMap, descendants_eq_flatMap, List.filter_flatMap,
      flatMap_eq_flatMap_iff _ hsub]
    constructor
    · intro h a d ha hd hdn
      -- the child that `a` is, or lies below, cannot be anonymous: it has `d` below it
      have hchild : ∀ c ∈ n.children, c.Below d → c.named = true := by
        intro c hc hcd
        by_contra hcn
        have hnil := h c hc
        rw [if_neg hcn, preorder, List.filter_cons_of_neg hcn] at hnil
        have hmem : d ∈ c.descendants.filter (·.named) :=
          List.mem_filter.2 ⟨(mem_descendants_iff c d).2 hcd, hdn⟩
        rw [← hnil] at hmem
        cases hmem
      cases ha with
      | child hc => exact hchild a hc hd
      | @deeper _ c _ hc hca =>
        have hcn := hchild c hc (hca.trans hd)
        have heq := h c hc
        rw [if_pos hcn, preorder, List.filter_cons_of_pos hcn, List.cons.injEq] at heq
        exact (ih c hc).1 heq.2 a d hca hd hdn
    · intro h c hc
      rw [preorder, List.filter_cons]
      split
      · have hreach := (ih c hc).2 fun a d ha hd hdn => h a d (Below.deeper hc ha) hd hdn
        rw [hreach]
      · rename_i hcn
        symm
        rw [List.filter_eq_nil_iff]
        intro d hd hdn
        exact hcn (h c d (Below.child hc) ((mem_descendants_iff c d).1 hd) hdn)

/-- The walks agree on all kinds and limits exactly if they can reach the same nodes. -/
theorem collect_eq_collectNamed_iff_reached (n : Node) :
    (∀ kinds limit, n.collect kinds limit = n.collectNamed kinds limit) ↔
      n.reached = n.descendants.filter (·.named) := by
  constructor
  · intro h
    -- all kinds that occur, and room for all nodes
    have hall := h (n.descendants.map (·.kind)) n.descendants.length
    have hkinds : ∀ d ∈ n.descendants, d.isOf (n.descendants.map (·.kind)) = true := by
      intro d hd
      exact List.contains_iff_mem.2 (List.mem_map_of_mem hd)
    have hcand : n.candidates (n.descendants.map (·.kind)) = n.descendants.filter (·.named) := by
      apply List.filter_congr
      intro d hd
      rw [hkinds d hd, Bool.and_true]
    have hreach : n.reached.filter (isOf (n.descendants.map (·.kind))) = n.reached := by
      apply List.filter_eq_self.2
      intro d hd
      exact hkinds d (List.mem_filter.1 ((reached_sublist n).mem hd)).1
    have hlen : (n.descendants.filter (·.named)).length ≤ n.descendants.length :=
      List.length_filter_le _ _
    rw [collect_eq, collectNamed_eq, hcand, hreach, List.take_of_length_le hlen,
      List.take_of_length_le (Nat.le_trans (reached_sublist n).length_le hlen)] at hall
    exact hall.symm
  · intro h kinds limit
    rw [collect_eq, collectNamed_eq, h, List.filter_filter, candidates]
    congr 2
    funext d
    exact Bool.and_comm _ _

/-- **The two walks agree** on all kinds and limits if and only if no named node under the start
has an anonymous node between itself and the start. -/
theorem collect_eq_collectNamed_iff (n : Node) :
    (∀ kinds limit, n.collect kinds limit = n.collectNamed kinds limit) ↔
      ¬ ∃ a d, n.Below a ∧ a.Below d ∧ a.named = false ∧ d.named = true := by
  rw [collect_eq_collectNamed_iff_reached, reached_eq_iff]
  constructor
  · rintro h ⟨a, d, ha, hd, han, hdn⟩
    have hnamed := h a d ha hd hdn
    rw [han] at hnamed
    cases hnamed
  · intro h a d ha hd hdn
    by_contra han
    exact h ⟨a, d, ha, hd, Bool.eq_false_iff.2 han, hdn⟩

end Node

end Outline
