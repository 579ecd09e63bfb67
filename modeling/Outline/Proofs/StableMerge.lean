import Mathlib.Data.List.Basic

/-!
# Stable sorting by a number

Lists of numbered entries, sorted by their numbers as the lines of a component are.

* `Ascending` — the numbers never decrease;
* `filter_mergeSort` — **stability**: the entries with one number keep their order;
* `eq_of_ascending` — an ascending list is known from its entries under each number, so that a
  stable sort is the only one;
* `mergeSort_append` — sorting two ascending lists, one behind the other, merges them;
* `take_mergeSort_append` — the start of such a merge needs no more than the start of the second
  list.
-/

namespace Outline

variable {α : Type}

/-- Entries whose numbers never decrease. -/
def Ascending (l : List (Nat × α)) : Prop := l.Pairwise fun a b => a.1 ≤ b.1

/-- The order of entries by their numbers alone. -/
def byNumber (a b : Nat × α) : Bool := a.1 ≤ b.1

theorem byNumber_iff (a b : Nat × α) : byNumber a b = true ↔ a.1 ≤ b.1 := by
  rw [byNumber, decide_eq_true_eq]

theorem byNumber_trans (a b c : Nat × α) (hab : byNumber a b = true) (hbc : byNumber b c = true) :
    byNumber a c = true := by
  rw [byNumber_iff] at *
  omega

theorem byNumber_total (a b : Nat × α) : (byNumber a b || byNumber b a) = true := by
  rw [Bool.or_eq_true, byNumber_iff, byNumber_iff]
  omega

theorem Ascending.head_le {a b : Nat × α} {l : List (Nat × α)} (h : Ascending (a :: l))
    (hb : b ∈ a :: l) : a.1 ≤ b.1 := by
  rcases List.mem_cons.1 hb with rfl | hb
  · exact Nat.le_refl _
  · exact (List.pairwise_cons.1 h).1 b hb

/-! ### Stability -/

theorem ascending_mergeSort (l : List (Nat × α)) : Ascending (l.mergeSort byNumber) := by
  have h := List.pairwise_mergeSort byNumber_trans byNumber_total l
  exact h.imp fun {a b} hab => (byNumber_iff a b).1 hab

/-- **Stability.**  The entries with one number stay in the order in which they came. -/
theorem filter_mergeSort (l : List (Nat × α)) (k : Nat) :
    (l.mergeSort byNumber).filter (·.1 == k) = l.filter (·.1 == k) := by
  have hsame : (l.filter (·.1 == k)).Pairwise fun a b => byNumber a b = true := by
    apply List.pairwise_of_forall_mem_list
    intro a ha b hb
    have ha := (List.mem_filter.1 ha).2
    have hb := (List.mem_filter.1 hb).2
    rw [beq_iff_eq] at ha hb
    exact (byNumber_iff a b).2 (Nat.le_of_eq (ha.trans hb.symm))
  have hsub := (List.sublist_mergeSort byNumber_trans byNumber_total hsame
    List.filter_sublist).filter (·.1 == k)
  simp only [List.filter_filter, Bool.and_self] at hsub
  -- a sublist of the same length
  have hlen := ((List.mergeSort_perm l byNumber).filter (·.1 == k)).length_eq
  exact (hsub.eq_of_length hlen.symm).symm

/-- **Uniqueness.**  Ascending lists with the same entries, in the same order, under each number
are equal. -/
theorem eq_of_ascending {l m : List (Nat × α)} (hl : Ascending l) (hm : Ascending m)
    (h : ∀ k, l.filter (·.1 == k) = m.filter (·.1 == k)) : l = m := by
  have hmem : ∀ {l m : List (Nat × α)}, (∀ k, l.filter (·.1 == k) = m.filter (·.1 == k)) →
      ∀ a ∈ l, a ∈ m := by
    intro l m h a ha
    have hf : a ∈ l.filter (·.1 == a.1) := List.mem_filter.2 ⟨ha, beq_self_eq_true a.1⟩
    rw [h] at hf
    exact (List.mem_filter.1 hf).1
  induction l generalizing m with
  | nil =>
    cases m with
    | nil => rfl
    | cons b m => cases hmem (fun k => (h k).symm) b List.mem_cons_self
  | cons a l ih =>
    cases m with
    | nil => cases hmem h a List.mem_cons_self
    | cons b m =>
      -- both heads carry the least number
      have hab : a.1 = b.1 := by
        have hba := hm.head_le (hmem h a List.mem_cons_self)
        have hab := hl.head_le (hmem (fun k => (h k).symm) b List.mem_cons_self)
        omega
      have hhead := h a.1
      rw [List.filter_cons, if_pos (beq_self_eq_true a.1), List.filter_cons,
        if_pos (beq_iff_eq.2 hab.symm), List.cons.injEq] at hhead
      obtain ⟨rfl, -⟩ := hhead
      have htail : ∀ k, l.filter (·.1 == k) = m.filter (·.1 == k) := by
        intro k
        have hk := h k
        rw [List.filter_cons, List.filter_cons] at hk
        split at hk
        · exact (List.cons.inj hk).2
        · exact hk
      rw [ih (List.pairwise_cons.1 hl).2 (List.pairwise_cons.1 hm).2 htail]

/-! ### Merges -/

theorem ascending_merge {l m : List (Nat × α)} (hl : Ascending l) (hm : Ascending m) :
    Ascending (l.merge m byNumber) := by
  have h := List.pairwise_merge byNumber_trans byNumber_total l m
    (hl.imp fun {a b} hab => (byNumber_iff a b).2 hab)
    (hm.imp fun {a b} hab => (byNumber_iff a b).2 hab)
  exact h.imp fun {a b} hab => (byNumber_iff a b).1 hab

/-- Under one number, a merge holds the entries of the first list before those of the second. -/
theorem filter_merge {l : List (Nat × α)} (hl : Ascending l) (m : List (Nat × α)) (k : Nat) :
    (l.merge m byNumber).filter (·.1 == k) = l.filter (·.1 == k) ++ m.filter (·.1 == k) := by
  induction l generalizing m with
  | nil => rw [List.nil_merge, List.filter_nil, List.nil_append]
  | cons a l ihl =>
    induction m with
    | nil => rw [List.merge_right, List.filter_nil, List.append_nil]
    | cons b m ihm =>
      by_cases hab : byNumber a b = true
      · rw [List.cons_merge_cons_pos _ _ _ hab, List.filter_cons, List.filter_cons,
          ihl (List.pairwise_cons.1 hl).2]
        split <;> rfl
      · rw [List.cons_merge_cons_neg _ _ _ hab, List.filter_cons, ihm]
        split
        · rename_i hb
          -- what is left of the first list has greater numbers
          have hnil : (a :: l).filter (·.1 == k) = [] := by
            rw [List.filter_eq_nil_iff]
            intro c hc hck
            rw [byNumber_iff] at hab
            rw [beq_iff_eq] at hb hck
            have hac := hl.head_le hc
            omega
          rw [hnil, List.nil_append, List.nil_append, List.filter_cons (x := b), if_pos hb]
        · rename_i hb
          rw [List.filter_cons (x := b), if_neg hb]

/-- Sorting two ascending lists, one behind the other, merges them. -/
theorem mergeSort_append {l m : List (Nat × α)} (hl : Ascending l) (hm : Ascending m) :
    (l ++ m).mergeSort byNumber = l.merge m byNumber := by
  apply eq_of_ascending (ascending_mergeSort _) (ascending_merge hl hm)
  intro k
  rw [filter_mergeSort, filter_merge hl, List.filter_append]

/-- The first `k` entries of a merge come from the first `k` of the second list. -/
theorem take_merge_take (l m : List (Nat × α)) {k j : Nat} (h : k ≤ j) :
    (l.merge (m.take j) byNumber).take k = (l.merge m byNumber).take k := by
  induction k generalizing l m j with
  | zero => rw [List.take_zero, List.take_zero]
  | succ k ih =>
    obtain ⟨j, rfl⟩ : ∃ i, j = i + 1 := ⟨j - 1, by omega⟩
    cases l with
    | nil => rw [List.nil_merge, List.nil_merge, List.take_take, Nat.min_eq_left h]
    | cons a l =>
      cases m with
      | nil => rw [List.take_nil]
      | cons b m =>
        rw [List.take_succ_cons, List.cons_merge_cons, List.cons_merge_cons]
        split
        · have hrest := ih l (b :: m) (Nat.le_of_succ_le h)
          rw [List.take_succ_cons] at hrest
          rw [List.take_succ_cons, List.take_succ_cons, hrest]
        · rw [List.take_succ_cons, List.take_succ_cons, ih (a :: l) m (Nat.le_of_succ_le_succ h)]

/-- The same of the sort that is a merge. -/
theorem take_mergeSort_append {l m : List (Nat × α)} (hl : Ascending l) (hm : Ascending m)
    {k j : Nat} (h : k ≤ j) :
    ((l ++ m.take j).mergeSort byNumber).take k = ((l ++ m).mergeSort byNumber).take k := by
  rw [mergeSort_append hl (hm.sublist (List.take_sublist j m)), mergeSort_append hl hm,
    take_merge_take l m h]

end Outline
