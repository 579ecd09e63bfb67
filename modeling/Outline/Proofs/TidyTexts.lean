import Mathlib.Data.Bool.AllAny
import Mathlib.Data.List.Chain
import Mathlib.Data.List.DropRight
import Outline.Proofs.Words

/-!
# Tidy texts

The normal form of white space: single spaces between words, and nothing else.

* `Text.Spaced` — every blank is a space, and no two stand together;
* `Text.Tidy` — such a text with no blank at either end, and `Text.Showable`, one that is not empty;
* `Text.collapse_eq_self_iff` — these are the texts that collapsing leaves as they are;
* `Text.Tidy.append`, `Text.Showable.append_space`, `Text.tidy_intercalate` — what is put together of
  tidy texts is tidy;
* `Text.Tidy.truncate`, `Text.Spaced.tidy_trim` — and so is what is cut from them.

`Spaced` is kept by every part of a text, whatever the cut; the ends are looked at apart.
-/

namespace Outline.Text

variable {s t : Text}

/-- Every blank is a space, and no two blanks stand together. -/
structure Spaced (t : Text) : Prop where
  blank_eq : ∀ c ∈ t, isBlank c = true → c = ' '
  apart : t.IsChain fun c d => isBlank c = false ∨ isBlank d = false

/-- Single spaces between words, and no blank at either end. -/
structure Tidy (t : Text) : Prop extends Spaced t where
  first : ∀ c ∈ t.head?, isBlank c = false
  last : ∀ c ∈ t.getLast?, isBlank c = false

/-- A tidy text that is not empty. -/
structure Showable (t : Text) : Prop extends Tidy t where
  ne_nil : t ≠ []

/-! ### Parts -/

theorem Spaced.of_infix (h : Spaced t) (hs : s <:+: t) : Spaced s :=
  ⟨fun c hc => h.blank_eq c (hs.subset hc), h.apart.infix hs⟩

theorem Spaced.append (hs : Spaced s) (ht : Spaced t)
    (hseam : (∀ c ∈ s.getLast?, isBlank c = false) ∨ ∀ d ∈ t.head?, isBlank d = false) :
    Spaced (s ++ t) := by
  constructor
  · intro c hc
    cases List.mem_append.1 hc with
    | inl hc => exact hs.blank_eq c hc
    | inr hc => exact ht.blank_eq c hc
  · apply hs.apart.append ht.apart
    intro c hc d hd
    exact hseam.imp (fun h => h c hc) fun h => h d hd

/-- Trimmed at both ends, a text has no blank there. -/
theorem Spaced.tidy_trim (h : Spaced t) : Tidy t.trim := by
  have hpre : t.trim <+: t.trimStart := List.rdropWhile_prefix isBlank t.trimStart
  have hsuffix : t.trimStart <:+ t := List.dropWhile_suffix isBlank
  exact ⟨h.of_infix (hpre.isInfix.trans hsuffix.isInfix), head?_trim t, getLast?_trim t⟩

/-! ### Tidy texts -/

/-- A text without blanks is tidy. -/
theorem tidy_of_solid (h : ∀ c ∈ t, isBlank c = false) : Tidy t := by
  refine ⟨⟨fun c hc hb => ?_, ?_⟩, fun c hc => h c (List.mem_of_mem_head? hc),
    fun c hc => h c (List.mem_of_getLast? hc)⟩
  · rw [h c hc] at hb
    cases hb
  · rw [List.isChain_iff_forall_rel_of_append_cons_cons]
    intro c d l r hsplit
    exact Or.inl (h c (by simp [hsplit]))

theorem IsWord.showable (h : IsWord t) : Showable t := ⟨tidy_of_solid h.solid, h.ne_nil⟩

theorem Tidy.append (hs : Tidy s) (ht : Tidy t) : Tidy (s ++ t) := by
  refine ⟨hs.toSpaced.append ht.toSpaced (Or.inl hs.last), fun c hc => ?_, fun c hc => ?_⟩
  · rw [List.head?_append] at hc
    cases Option.or_eq_some_iff.1 hc with
    | inl hc => exact hs.first c hc
    | inr hc => exact ht.first c hc.2
  · rw [List.getLast?_append] at hc
    cases Option.or_eq_some_iff.1 hc with
    | inl hc => exact ht.last c hc
    | inr hc => exact hs.last c hc.2

theorem Showable.append (hs : Showable s) (ht : Tidy t) : Showable (s ++ t) :=
  ⟨hs.toTidy.append ht, List.append_ne_nil_of_left_ne_nil hs.ne_nil t⟩

/-- Two texts with a space between. -/
theorem Showable.append_space (hs : Showable s) (ht : Showable t) : Showable (s ++ ' ' :: t) := by
  have hspace : Spaced [' '] :=
    ⟨fun c hc _ => List.mem_singleton.1 hc, List.IsChain.singleton ' '⟩
  have hspaced : Spaced (s ++ ([' '] ++ t)) := by
    apply hs.toSpaced.append (hspace.append ht.toSpaced (Or.inr ht.first))
    exact Or.inl hs.last
  refine ⟨⟨hspaced, fun c hc => ?_, fun c hc => ?_⟩, List.append_ne_nil_of_left_ne_nil hs.ne_nil _⟩
  · rw [List.head?_append_of_ne_nil s hs.ne_nil] at hc
    exact hs.first c hc
  · rw [List.append_cons, List.getLast?_append_of_ne_nil _ ht.ne_nil] at hc
    exact ht.last c hc

/-- Texts joined by a space, with something solid in front of the space or without. -/
theorem showable_intercalate {glue : Text} (hglue : ∀ c ∈ glue, isBlank c = false) {ts : List Text}
    (hts : ∀ t ∈ ts, Showable t) (hne : ts ≠ []) : Showable ((glue ++ [' ']).intercalate ts) := by
  induction ts with
  | nil => exact absurd rfl hne
  | cons t ts ih =>
    obtain ⟨ht, hts⟩ := List.forall_mem_cons.1 hts
    cases ts with
    | nil =>
      rw [List.intercalate_singleton]
      exact ht
    | cons u us =>
      have hsplit : (glue ++ [' ']).intercalate (t :: u :: us) =
          (t ++ glue) ++ ' ' :: (glue ++ [' ']).intercalate (u :: us) := by
        simp [List.intercalate_cons_cons]
      rw [hsplit]
      exact (ht.append (tidy_of_solid hglue)).append_space (ih hts (List.cons_ne_nil u us))

theorem tidy_intercalate {glue : Text} (hglue : ∀ c ∈ glue, isBlank c = false) {ts : List Text}
    (hts : ∀ t ∈ ts, Showable t) : Tidy ((glue ++ [' ']).intercalate ts) := by
  by_cases hne : ts = []
  · rw [hne]
    exact tidy_of_solid (by simp)
  · exact (showable_intercalate hglue hts hne).toTidy

/-- A text cut after some characters keeps its form, also where the cut is behind a space: the
ellipsis is no blank. -/
theorem Tidy.truncate (h : Tidy t) (n : Nat) : Tidy (t.truncate n) := by
  rw [Text.truncate]
  split
  · exact h
  · have hdots : Showable "...".toList := ⟨tidy_of_solid (List.all_iff_forall_prop.1 rfl), by decide⟩
    have hpre : t.take n <+: t := List.take_prefix n t
    refine ⟨(h.toSpaced.of_infix hpre.isInfix).append hdots.toSpaced (Or.inr hdots.first),
      fun c hc => ?_, fun c hc => ?_⟩
    · rw [List.head?_append] at hc
      cases Option.or_eq_some_iff.1 hc with
      | inl hc => exact h.first c (mem_head?_of_isPrefix hpre hc)
      | inr hc => exact hdots.first c hc.2
    · rw [List.getLast?_append_of_ne_nil _ hdots.ne_nil] at hc
      exact hdots.last c hc

theorem Showable.truncate (h : Showable t) (n : Nat) : Showable (t.truncate n) := by
  refine ⟨h.toTidy.truncate n, ?_⟩
  rw [Text.truncate]
  split
  · exact h.ne_nil
  · exact List.append_ne_nil_of_right_ne_nil _ (by simp)

/-! ### Collapsed texts -/

theorem tidy_collapse (t : Text) : Tidy t.collapse :=
  have hnil : ∀ c ∈ ([] : Text), isBlank c = false := by simp
  tidy_intercalate hnil fun _ hw => (isWord_of_mem_words hw).showable

/-- A tidy text begins with a word; what follows is nothing, or a space and a tidy text. -/
theorem Tidy.exists_word (h : Tidy t) (hne : t ≠ []) : ∃ w, IsWord w ∧
    (t = w ∨ ∃ r, t = w ++ ' ' :: r ∧ Showable r) := by
  have hsplit : t.takeWhile (fun c => !isBlank c) ++ t.dropWhile (fun c => !isBlank c) = t :=
    List.takeWhile_append_dropWhile
  have hword : IsWord (t.takeWhile fun c => !isBlank c) := by
    constructor
    · obtain ⟨c, r, rfl⟩ := List.exists_cons_of_ne_nil hne
      rw [List.takeWhile_cons_of_pos (by simp [h.first c rfl])]
      exact List.cons_ne_nil _ _
    · intro c hc
      simpa using List.all_eq_true.1 List.all_takeWhile c hc
  refine ⟨_, hword, ?_⟩
  cases hr : t.dropWhile (fun c => !isBlank c) with
  | nil =>
    rw [hr, List.append_nil] at hsplit
    exact Or.inl hsplit.symm
  | cons b r =>
    rw [hr] at hsplit
    have hb : isBlank b = true := by
      have hnot := List.head?_dropWhile_not (fun c => !isBlank c) t
      rw [hr] at hnot
      simpa using hnot
    have hspace : b = ' ' := h.blank_eq b (by rw [← hsplit]; simp) hb
    rw [hspace] at hsplit hb
    have hlast : ∀ c ∈ (' ' :: r).getLast?, isBlank c = false := by
      intro c hc
      apply h.last c
      rw [← hsplit, List.getLast?_append_of_ne_nil _ (by simp)]
      exact hc
    have hr' : r ≠ [] := by
      intro hnil
      rw [hnil] at hlast
      exact absurd (hlast ' ' rfl) (by decide)
    have htail : Spaced (' ' :: r) := h.toSpaced.of_infix ⟨_, [], by rw [List.append_nil]; exact hsplit⟩
    have hfirst : ∀ c ∈ r.head?, isBlank c = false := by
      intro c hc
      have hpair := (List.isChain_cons.1 htail.apart).1 c hc
      exact hpair.resolve_left (by decide)
    refine Or.inr ⟨r, hsplit.symm, ⟨htail.of_infix ⟨[' '], [], by simp⟩, hfirst, fun c hc => ?_⟩, hr'⟩
    apply hlast c
    rw [List.getLast?_cons_of_ne_nil hr']
    exact hc

theorem Tidy.collapse_eq (h : Tidy t) : t.collapse = t := by
  induction hlen : t.length using Nat.strongRecOn generalizing t with
  | _ n ih =>
    by_cases hne : t = []
    · rw [hne]
      rfl
    obtain ⟨w, hw, hrest⟩ := h.exists_word hne
    cases hrest with
    | inl hrest =>
      rw [hrest, collapse, hw.words_eq, List.intercalate_singleton]
    | inr hrest =>
      obtain ⟨r, hsplit, hr⟩ := hrest
      have hlt : r.length < n := by
        rw [← hlen, hsplit]
        simp
        omega
      have hwords : words r ≠ [] := by
        intro hnil
        have hcollapse := ih r.length hlt hr.toTidy rfl
        rw [collapse, hnil] at hcollapse
        exact hr.ne_nil hcollapse.symm
      obtain ⟨u, us, hus⟩ := List.exists_cons_of_ne_nil hwords
      rw [hsplit, collapse, words_append_cons (by decide), hw.words_eq, hus, List.singleton_append,
        List.intercalate_cons_cons, ← hus, ← collapse, ih r.length hlt hr.toTidy rfl, List.append_assoc]
      rfl

/-- **Collapsing leaves exactly the tidy texts as they are.** -/
theorem collapse_eq_self_iff : t.collapse = t ↔ Tidy t :=
  ⟨fun h => h ▸ tidy_collapse t, Tidy.collapse_eq⟩

end Outline.Text
