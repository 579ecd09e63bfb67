import Mathlib.Data.List.Infix
import Outline.Text.Basic

/-!
# Markers in texts put together

Where a tag such as `<script` is found in a text that is put together from parts.

* `Text.IsTag` — a marker that begins with an angle bracket and holds no other;
* `Text.Starts` — a text that is empty or begins with an angle bracket;
* `Text.cut?_eq_none_iff`, `Text.cutLast?_eq_none_iff` — cuts fail only without the marker;
* `Text.tag_infix_append_iff` — before a text that starts, no tag lies across the seam;
* `Text.cut?_append`, `Text.cutLast?_append` — the first (last) cut of a text put together;
* `Text.cut?_append_pair`, `Text.cut?_pair` — the first cut at two characters;
* `Text.cut?_append_of_some`, `Text.not_infix_of_cut?` — a first cut stays the first.
-/

namespace Outline.Text

/-! ### Missing markers -/

theorem skip?_eq_none_iff (marker t : Text) : skip? marker t = none ↔ ¬ marker <+: t := by
  rw [Option.eq_none_iff_forall_ne_some]
  constructor
  · rintro h ⟨rest, rfl⟩
    exact h rest (skip?_eq_some_iff.2 rfl)
  · intro h rest hrest
    exact h ⟨rest, (skip?_eq_some_iff.1 hrest).symm⟩

theorem skip?_append (marker rest : Text) : skip? marker (marker ++ rest) = some rest :=
  skip?_eq_some_iff.2 rfl

theorem cut?_eq_none_iff (marker t : Text) : cut? marker t = none ↔ ¬ marker <:+: t := by
  induction t with
  | nil =>
    rw [cut?, Option.map_eq_none_iff, skip?_eq_none_iff, List.prefix_nil, List.infix_nil]
  | cons c r ih =>
    rw [cut?, List.infix_cons_iff, not_or, ← ih, ← skip?_eq_none_iff]
    cases skip? marker (c :: r) with
    | none => simp
    | some rest => simp

theorem cutLast?_eq_none_iff (marker t : Text) : cutLast? marker t = none ↔ ¬ marker <:+: t := by
  induction t with
  | nil =>
    rw [cutLast?, Option.map_eq_none_iff, skip?_eq_none_iff, List.prefix_nil, List.infix_nil]
  | cons c r ih =>
    rw [cutLast?, List.infix_cons_iff, not_or, ← ih, ← skip?_eq_none_iff]
    cases cutLast? marker r with
    | none => simp
    | some p => simp

/-! ### Seams -/

/-- A marker that begins with an angle bracket and holds no other. -/
def IsTag (marker : Text) : Prop := ∃ r, marker = '<' :: r ∧ '<' ∉ r

/-- A text that is empty or begins with an angle bracket. -/
def Starts (t : Text) : Prop := ∀ c ∈ t.head?, c = '<'

theorem starts_nil : Starts [] := by
  intro c hc
  cases hc

theorem starts_cons (r : Text) : Starts ('<' :: r) := by
  intro c hc
  exact (Option.some.inj hc).symm

theorem Starts.append {s t : Text} (hs : Starts s) (ht : Starts t) : Starts (s ++ t) := by
  cases s with
  | nil => exact ht
  | cons c r => exact hs

theorem IsTag.mem {marker : Text} (hm : IsTag marker) : '<' ∈ marker := by
  obtain ⟨m, rfl, -⟩ := hm
  exact List.mem_cons_self

/-- A tag does not lie across the seam before a text that starts with a bracket. -/
theorem IsTag.not_across {l₁ l₂ r : Text} (hm : IsTag (l₁ ++ l₂)) (h₁ : l₁ ≠ []) (h₂ : l₂ ≠ [])
    (hr : Starts r) : ¬ l₂ <+: r := by
  obtain ⟨m, hm, hnot⟩ := hm
  cases l₁ with
  | nil => exact absurd rfl h₁
  | cons a l₁ =>
    cases l₂ with
    | nil => exact absurd rfl h₂
    | cons b l₂ =>
      rintro ⟨t, rfl⟩
      have hb : b = '<' := hr b rfl
      rw [List.cons_append, List.cons.injEq] at hm
      apply hnot
      rw [← hm.2, hb]
      exact List.mem_append_right l₁ List.mem_cons_self

/-- Before a text that starts with a bracket, tags are found on one of the sides. -/
theorem tag_infix_append_iff {marker s r : Text} (hm : IsTag marker) (hr : Starts r) :
    marker <:+: s ++ r ↔ marker <:+: s ∨ marker <:+: r := by
  rw [List.infix_append_iff_ne_nil]
  constructor
  · rintro (h | h | ⟨l₁, l₂, h₁, h₂, rfl, -, hpre⟩)
    · exact Or.inl h
    · exact Or.inr h
    · exact absurd hpre (hm.not_across h₁ h₂ hr)
  · rintro (h | h)
    · exact Or.inl h
    · exact Or.inr (Or.inl h)

/-- No tag begins in a text without angle brackets. -/
theorem tag_infix_append_of_not_mem {marker s r : Text} (hm : IsTag marker) (hs : '<' ∉ s) :
    marker <:+: s ++ r ↔ marker <:+: r := by
  rw [List.infix_append_iff_ne_nil]
  constructor
  · rintro (h | h | ⟨l₁, l₂, h₁, h₂, rfl, hsuf, -⟩)
    · exact absurd (h.mem hm.mem) hs
    · exact h
    · obtain ⟨m, hm, -⟩ := hm
      obtain ⟨a, l₁, rfl⟩ := List.exists_cons_of_ne_nil h₁
      rw [List.cons_append, List.cons.injEq] at hm
      have ha : '<' ∈ a :: l₁ := hm.1 ▸ List.mem_cons_self
      exact absurd (hsuf.mem ha) hs
  · exact fun h => Or.inr (Or.inl h)

/-! ### Cuts of texts put together -/

/-- A text without the marker is passed over by the first cut. -/
theorem cut?_append {marker s r : Text} (hm : IsTag marker) (hs : ¬ marker <:+: s)
    (hr : Starts r) :
    cut? marker (s ++ r) = (cut? marker r).map fun p => (s ++ p.1, p.2) := by
  induction s with
  | nil =>
    rw [List.nil_append]
    cases cut? marker r <;> rfl
  | cons c s ih =>
    rw [List.infix_cons_iff, not_or] at hs
    have hskip : skip? marker (c :: (s ++ r)) = none := by
      rw [skip?_eq_none_iff]
      intro hpre
      rcases List.prefix_or_prefix_of_prefix hpre (List.prefix_append (c :: s) r) with h | h
      · exact hs.1 h
      · obtain ⟨l₂, rfl⟩ := h
        have hl₂ : l₂ ≠ [] := by
          rintro rfl
          exact hs.1 (by rw [List.append_nil])
        exact hm.not_across (List.cons_ne_nil c s) hl₂ hr
          ((List.prefix_append_right_inj (c :: s)).1 hpre)
    rw [List.cons_append, cut?, hskip, ih hs.2]
    cases cut? marker r <;> rfl

theorem cut?_marker_append (marker r : Text) : cut? marker (marker ++ r) = some ([], r) := by
  cases h : marker ++ r with
  | nil =>
    have hskip := skip?_append marker r
    rw [h] at hskip
    rw [cut?, hskip]
    rfl
  | cons c t =>
    have hskip := skip?_append marker r
    rw [h] at hskip
    rw [cut?, hskip]

/-- The first cut at a character, behind a text without it. -/
theorem cut?_singleton {c : Char} {s : Text} (hs : c ∉ s) (r : Text) :
    cut? [c] (s ++ c :: r) = some (s, r) := by
  induction s with
  | nil => exact cut?_marker_append [c] r
  | cons d s ih =>
    have hne : c ≠ d := fun h => hs (h ▸ List.mem_cons_self)
    rw [List.cons_append, cut?, skip?, if_neg hne, ih fun h => hs (List.mem_cons_of_mem d h)]
    rfl

/-- A pair of characters is not found before a seam that it cannot lie across. -/
theorem cut?_append_pair {c d : Char} {s r : Text} (hs : ¬ [c, d] <:+: s)
    (hseam : s.getLast? = some c → r.head? ≠ some d) :
    cut? [c, d] (s ++ r) = (cut? [c, d] r).map fun p => (s ++ p.1, p.2) := by
  induction s with
  | nil =>
    rw [List.nil_append]
    cases cut? [c, d] r <;> rfl
  | cons x s ih =>
    rw [List.infix_cons_iff, not_or] at hs
    have hskip : skip? [c, d] (x :: (s ++ r)) = none := by
      rw [skip?_eq_none_iff]
      rintro ⟨t, ht⟩
      obtain ⟨hx, ht⟩ := List.cons.inj ht
      cases s with
      | nil => exact hseam (by rw [hx]; rfl) (by rw [← List.nil_append r, ← ht]; rfl)
      | cons y s =>
        obtain ⟨hy, -⟩ := List.cons.inj ht
        rw [hx, hy] at hs
        exact hs.1 (List.prefix_append [x, y] s)
    have hlast : s.getLast? = some c → r.head? ≠ some d := by
      intro h
      apply hseam
      rw [List.getLast?_cons, h]
      rfl
    rw [List.cons_append, cut?, hskip, ih hs.2 hlast]
    cases cut? [c, d] r <;> rfl

/-- The first cut at two different characters, behind a text without them. -/
theorem cut?_pair {c d : Char} (hne : c ≠ d) {s : Text} (hs : ¬ [c, d] <:+: s) (r : Text) :
    cut? [c, d] (s ++ ([c, d] ++ r)) = some (s, r) := by
  have hseam : s.getLast? = some c → ([c, d] ++ r).head? ≠ some d :=
    fun _ h => hne (Option.some.inj h)
  rw [cut?_append_pair hs hseam, cut?_marker_append, Option.map_some, List.append_nil]

/-- What stands behind a text does not move its first cut. -/
theorem cut?_append_of_some {marker t before after : Text} (h : cut? marker t = some (before, after))
    (r : Text) : cut? marker (t ++ r) = some (before, after ++ r) := by
  induction t generalizing before with
  | nil =>
    have hnil := eq_of_cut?_eq_some h
    simp only [List.nil_eq, List.append_eq_nil_iff] at hnil
    obtain ⟨⟨rfl, rfl⟩, rfl⟩ := hnil
    exact cut?_marker_append [] r
  | cons c t ih =>
    rw [cut?] at h
    rw [List.cons_append, cut?]
    cases hskip : skip? marker (c :: t) with
    | some rest =>
      rw [hskip] at h
      cases h
      have hseam : skip? marker (c :: (t ++ r)) = some (after ++ r) := by
        rw [skip?_eq_some_iff, ← List.cons_append, skip?_eq_some_iff.1 hskip, List.append_assoc]
      rw [hseam]
    | none =>
      rw [hskip] at h
      obtain ⟨⟨b, a⟩, hcut, heq⟩ := Option.map_eq_some_iff.1 h
      cases heq
      -- a marker across the seam would be too long: a whole one stands in `t`
      have hseam : skip? marker (c :: (t ++ r)) = none := by
        rw [skip?_eq_none_iff] at hskip ⊢
        intro hpre
        have hlen := congrArg List.length (eq_of_cut?_eq_some hcut)
        simp only [List.length_append] at hlen
        exact hskip (List.prefix_of_prefix_length_le hpre (List.prefix_append (c :: t) r)
          (by rw [List.length_cons]; omega))
      rw [hseam, ih hcut]
      rfl

/-- There is no marker before the first cut. -/
theorem not_infix_of_cut? {marker t before after : Text} (hm : marker ≠ [])
    (h : cut? marker t = some (before, after)) : ¬ marker <:+: before := by
  intro hinfix
  obtain ⟨⟨b, a⟩, hcut⟩ :=
    Option.ne_none_iff_exists'.1 (mt (cut?_eq_none_iff marker before).1 (not_not.2 hinfix))
  have hfirst := cut?_append_of_some hcut (marker ++ after)
  rw [← List.append_assoc, ← eq_of_cut?_eq_some h, h] at hfirst
  have hafter : after = a ++ (marker ++ after) := congrArg Prod.snd (Option.some.inj hfirst)
  have hlen := congrArg List.length hafter
  have hpos := List.length_pos_of_ne_nil hm
  simp only [List.length_append] at hlen
  omega

theorem cutLast?_append_of_some {marker r before after : Text} (s : Text)
    (h : cutLast? marker r = some (before, after)) :
    cutLast? marker (s ++ r) = some (s ++ before, after) := by
  induction s with
  | nil => exact h
  | cons c s ih => rw [List.cons_append, cutLast?, ih]; rfl

/-- The last cut is at a marker behind which there is no other. -/
theorem cutLast?_append {marker r : Text} (hm : IsTag marker) (hr : ¬ marker <:+: r) (s : Text) :
    cutLast? marker (s ++ (marker ++ r)) = some (s, r) := by
  have hlast : cutLast? marker (marker ++ r) = some ([], r) := by
    have hskip := skip?_append marker r
    have htag := hm
    obtain ⟨m, rfl, hnot⟩ := hm
    have hnone : cutLast? ('<' :: m) (m ++ r) = none := by
      rw [cutLast?_eq_none_iff, tag_infix_append_of_not_mem htag hnot]
      exact hr
    rw [List.cons_append] at hskip ⊢
    rw [cutLast?, hnone, hskip]
    rfl
  have hcut := cutLast?_append_of_some s hlast
  rwa [List.append_nil] at hcut

end Outline.Text
