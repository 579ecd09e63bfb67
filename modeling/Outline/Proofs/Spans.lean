import Mathlib.Data.List.DropRight
import Mathlib.Data.List.Induction
import Outline.Text.Basic

/-!
# Spans

A text told by the characters of a class that it begins or ends with.

* `takeWhile_span`, `dropWhile_span`, `span_unique` — the longest span at the beginning;
* `rtakeWhile_span`, `exists_last_span` — the longest span at the end;
* `suffix_span` — the texts that end a text with a span in front.
-/

namespace Outline

section

variable {p : Char → Bool} {s t s' t' : Text} {c c' : Char}

theorem takeWhile_span (hs : ∀ d ∈ s, p d = true) (hc : p c = false) :
    (s ++ c :: t).takeWhile p = s := by
  rw [List.takeWhile_append_of_pos hs, List.takeWhile_cons_of_neg (by simp [hc]), List.append_nil]

theorem dropWhile_span (hs : ∀ d ∈ s, p d = true) (hc : p c = false) :
    (s ++ c :: t).dropWhile p = c :: t := by
  rw [List.dropWhile_append_of_pos hs, List.dropWhile_cons_of_neg (by simp [hc])]

/-- A text begins with one longest span of a class only. -/
theorem span_unique (h : s ++ c :: t = s' ++ c' :: t') (hs : ∀ d ∈ s, p d = true)
    (hs' : ∀ d ∈ s', p d = true) (hc : p c = false) (hc' : p c' = false) :
    s = s' ∧ c = c' ∧ t = t' := by
  have htake := takeWhile_span (t := t) hs hc
  have hdrop := dropWhile_span (t := t) hs hc
  rw [h, takeWhile_span hs' hc'] at htake
  rw [h, dropWhile_span hs' hc'] at hdrop
  obtain ⟨rfl, rfl⟩ := List.cons.inj hdrop
  exact ⟨htake.symm, rfl, rfl⟩

/-- What ends a text begins in front of a character of it, or behind. -/
theorem suffix_span {q : Text} (h : q <:+ s ++ c :: t) :
    (∃ s', s' <:+ s ∧ q = s' ++ c :: t) ∨ q <:+ t := by
  induction s with
  | nil =>
    rcases List.suffix_cons_iff.1 h with rfl | h
    · exact Or.inl ⟨[], List.suffix_rfl, rfl⟩
    · exact Or.inr h
  | cons d s ih =>
    rcases List.suffix_cons_iff.1 h with rfl | h
    · exact Or.inl ⟨d :: s, List.suffix_rfl, rfl⟩
    · rcases ih h with ⟨s', hs', rfl⟩ | h
      · exact Or.inl ⟨s', hs'.trans (List.suffix_cons d s), rfl⟩
      · exact Or.inr h

/-- The longest span at the end of a text begins behind the last character that is not in it. -/
theorem rtakeWhile_span (hc : p c = false) :
    (s ++ c :: t).rtakeWhile p = t.rtakeWhile p := by
  induction t using List.reverseRecOn with
  | nil => rw [List.rtakeWhile_concat_neg p s c (by simp [hc]), List.rtakeWhile_nil]
  | append_singleton t d ih =>
    rw [← List.cons_append, ← List.append_assoc, List.rtakeWhile_concat, List.rtakeWhile_concat, ih]

end

/-- Every text ends with a longest span of a class. -/
theorem exists_last_span (p : Char → Bool) (t : Text) :
    ∃ b x, t = b ++ x ∧ (∀ c ∈ x, p c = true) ∧ ∀ c ∈ b.getLast?, p c = false := by
  induction t using List.reverseRecOn with
  | nil => exact ⟨[], [], rfl, by simp, by simp⟩
  | append_singleton t c ih =>
    by_cases hc : p c = true
    · obtain ⟨b, x, rfl, hx, hb⟩ := ih
      have hxc : ∀ d ∈ x ++ [c], p d = true :=
        List.forall_mem_append.2 ⟨hx, List.forall_mem_singleton.2 hc⟩
      exact ⟨b, x ++ [c], List.append_assoc _ _ _, hxc, hb⟩
    · exact ⟨t ++ [c], [], by simp, by simp, by simp [hc]⟩

end Outline
