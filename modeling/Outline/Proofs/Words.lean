import Outline.Proofs.Intercalated
import Outline.Proofs.Spans

/-!
# Words and parts of a text

Laws of `Text.trim`, `Text.words`, `Text.collapse` and `Text.afterLast`.

* `Text.head?_trim`, `Text.getLast?_trim`, `Text.trim_eq_self` — a trimmed text has no blank at its
  ends, and trimming changes no such text;
* `Text.flatten_words`, `Text.filter_collapse` — words hold all that is not blank, in its order;
* `Text.IsWord`, `Text.words_append_cons` — a text splits at every blank, and a text without one is a
  word;
* `Text.mem_collapse`, `Text.collapse_eq_nil_iff` — what stands in a collapsed text, and when it is empty;
* `Text.collapse_append_iff` — what may stand before a text without being seen in the collapsed one;
* `Text.afterLast_append`, `Text.afterLast_eq_iff` — the part behind the last separator.
-/

namespace Outline.Text

/-! ### Ends -/

theorem mem_head?_of_isPrefix {s t : Text} {c : Char} (h : s <+: t) (hc : c ∈ s.head?) : c ∈ t.head? := by
  obtain ⟨r, rfl⟩ := h
  rw [List.head?_append, hc]
  rfl

theorem head?_trim (t : Text) : ∀ c ∈ t.trim.head?, isBlank c = false := by
  intro c hc
  have hpre : t.trim <+: t.trimStart := List.rdropWhile_prefix isBlank t.trimStart
  have hhead : (t.dropWhile isBlank).head? = some c := mem_head?_of_isPrefix hpre hc
  have hnot := List.head?_dropWhile_not isBlank t
  rwa [hhead] at hnot

theorem getLast?_trim (t : Text) : ∀ c ∈ t.trim.getLast?, isBlank c = false := by
  intro c hc
  obtain ⟨hne, rfl⟩ := List.mem_getLast?_eq_getLast hc
  exact Bool.eq_false_iff.2 (List.rdropWhile_last_not isBlank t.trimStart hne)

/-- A text without blanks at its ends is left as it is. -/
theorem trim_eq_self {t : Text} (hfirst : ∀ c ∈ t.head?, isBlank c = false)
    (hlast : ∀ c ∈ t.getLast?, isBlank c = false) : t.trim = t := by
  have hstart : t.trimStart = t := by
    cases t with
    | nil => rfl
    | cons c r =>
      have hc : isBlank c = false := hfirst c rfl
      rw [trimStart, List.dropWhile_cons_of_neg (by simp [hc])]
  have hend : t.rdropWhile isBlank = t := by
    rw [List.rdropWhile_eq_self_iff]
    intro hne
    rw [hlast _ (List.getLast?_eq_some_getLast hne)]
    exact Bool.false_ne_true
  rw [trim, hstart]
  exact hend

/-! ### Words -/

/-- Nothing but blanks gets lost when a text is split at them. -/
theorem flatten_splitOnP (t : Text) :
    (t.splitOnP isBlank).flatten = t.filter fun c => !isBlank c := by
  induction t with
  | nil => rfl
  | cons c t ih =>
    rw [List.splitOnP_cons_eq_if_modifyHead, List.filter_cons]
    cases hc : isBlank c with
    | true => exact ih
    | false =>
      obtain ⟨w, ws, hws⟩ := List.exists_cons_of_ne_nil (List.splitOnP_ne_nil isBlank t)
      rw [hws] at ih ⊢
      rw [← ih]
      rfl

theorem flatten_filter_ne_nil (ws : List Text) : (ws.filter (· ≠ [])).flatten = ws.flatten := by
  induction ws with
  | nil => rfl
  | cons w ws ih =>
    rw [List.filter_cons, List.flatten_cons, ← ih]
    cases w <;> rfl

/-- The words of a text are its characters without the blanks. -/
theorem flatten_words (t : Text) : t.words.flatten = t.filter fun c => !isBlank c := by
  rw [words, flatten_filter_ne_nil, flatten_splitOnP]

theorem words_cons_of_blank {c : Char} (hc : isBlank c = true) (t : Text) :
    words (c :: t) = words t := by
  rw [words, List.splitOnP_cons_eq_if_modifyHead, if_pos hc, List.filter_cons]
  rfl

/-- Blanks before a text are none of its words. -/
theorem words_append_of_blank {p : Text} (hp : p.blank = true) (t : Text) :
    words (p ++ t) = words t := by
  induction p with
  | nil => rfl
  | cons c p ih =>
    obtain ⟨hc, hp⟩ := Bool.and_eq_true_iff.1 hp
    rw [List.cons_append, words_cons_of_blank hc, ih hp]

/-- A text splits at a blank, wherever it stands. -/
theorem words_append_cons {c : Char} (hc : isBlank c = true) (s t : Text) :
    words (s ++ c :: t) = words s ++ words t := by
  rw [words, List.splitOnP_append_cons s t hc, List.filter_append]
  rfl

/-- No word goes on where a blank follows, or nothing. -/
theorem words_append {t : Text} (ht : ∀ c ∈ t.head?, isBlank c = true) (s : Text) :
    words (s ++ t) = words s ++ words t := by
  cases t with
  | nil => simp [words, List.splitOnP_nil]
  | cons c t => rw [words_append_cons (ht c rfl), words_cons_of_blank (ht c rfl)]

/-- A text that is one word. -/
structure IsWord (w : Text) : Prop where
  ne_nil : w ≠ []
  solid : ∀ c ∈ w, isBlank c = false

theorem IsWord.words_eq {w : Text} (h : IsWord w) : words w = [w] := by
  rw [words, List.splitOnP_eq_singleton h.solid, List.filter_singleton]
  simp [h.ne_nil]

theorem isBlank_of_mem_splitOnP {t w : Text} (h : w ∈ t.splitOnP isBlank) :
    ∀ c ∈ w, isBlank c = false := by
  intro c hc
  have hmem : c ∈ (t.splitOnP isBlank).flatten := List.mem_flatten.2 ⟨w, h, hc⟩
  rw [flatten_splitOnP, List.mem_filter, Bool.not_eq_true'] at hmem
  exact hmem.2

theorem isWord_of_mem_words {t w : Text} (h : w ∈ t.words) : IsWord w :=
  ⟨ne_nil_of_mem_words h, isBlank_of_mem_splitOnP (List.mem_filter.1 h).1⟩

/-! ### Collapsed texts -/

/-- A collapsed text holds single spaces and what was not blank. -/
theorem mem_collapse {t : Text} {c : Char} (h : c ∈ t.collapse) :
    c = ' ' ∨ (c ∈ t ∧ isBlank c = false) := by
  rcases mem_intercalate h with h | h
  · exact Or.inl (List.mem_singleton.1 h)
  · rw [flatten_words, List.mem_filter, Bool.not_eq_true'] at h
    exact Or.inr h

theorem filter_intercalate {p : Char → Bool} {sep : Char} (hsep : p sep = false) (ws : List Text) :
    ([sep].intercalate ws).filter p = ws.flatten.filter p := by
  induction ws with
  | nil => rfl
  | cons w ws ih =>
    cases ws with
    | nil => rw [List.intercalate_singleton, List.flatten_singleton]
    | cons w' ws =>
      have hskip : [sep].filter p = [] := List.filter_cons_of_neg (by simp [hsep])
      rw [List.intercalate_cons_cons, List.filter_append, List.filter_append, ih, hskip,
        List.append_nil, ← List.filter_append, ← List.flatten_cons]

/-- Collapsing changes the blanks only. -/
theorem filter_collapse (t : Text) :
    (t.collapse.filter fun c => !isBlank c) = t.filter fun c => !isBlank c := by
  rw [collapse, filter_intercalate (by decide), flatten_words, List.filter_filter]
  simp only [Bool.and_self]

theorem blank_iff_filter {t : Text} : t.blank = true ↔ (t.filter fun c => !isBlank c) = [] := by
  rw [blank, List.all_eq_true, List.filter_eq_nil_iff]
  simp

/-- Nothing is left of blanks, and of blanks only. -/
theorem collapse_eq_nil_iff {t : Text} : t.collapse = [] ↔ t.blank = true := by
  constructor
  · intro h
    rw [blank_iff_filter, ← filter_collapse, h]
    rfl
  · intro h
    have hwords := words_append_of_blank h []
    rw [List.append_nil] at hwords
    rw [collapse, hwords]
    rfl

/-- **What is not seen before a text** once blanks are collapsed is blank. -/
theorem collapse_append_iff {p t : Text} : (p ++ t).collapse = t.collapse ↔ p.blank = true := by
  constructor
  · intro h
    have hfilter := congrArg (List.filter fun c => !isBlank c) h
    rw [filter_collapse, filter_collapse, List.filter_append] at hfilter
    exact blank_iff_filter.2 (List.append_left_eq_self.1 hfilter)
  · intro h
    rw [collapse, collapse, words_append_of_blank h]

/-! ### The last part -/

theorem afterLast_eq (sep : Char) (t : Text) : t.afterLast sep = t.rtakeWhile (· ≠ sep) := rfl

theorem afterLast_of_not_mem {sep : Char} {t : Text} (h : sep ∉ t) : t.afterLast sep = t := by
  apply List.rtakeWhile_eq_self_iff.2
  intro c hc
  exact decide_eq_true fun he => h (he ▸ hc)

theorem afterLast_append_of_mem {sep : Char} {t : Text} (h : sep ∈ t) (p : Text) :
    (p ++ t).afterLast sep = t.afterLast sep := by
  obtain ⟨a, b, rfl⟩ := List.append_of_mem h
  have hsep : (decide (sep ≠ sep)) = false := by simp
  rw [afterLast_eq, afterLast_eq, ← List.append_assoc, rtakeWhile_span hsep, rtakeWhile_span hsep]

theorem afterLast_append_of_not_mem {sep : Char} {t : Text} (h : sep ∉ t) (p : Text) :
    (p ++ t).afterLast sep = p.afterLast sep ++ t := by
  have hall : ∀ c ∈ t.reverse, (decide (c ≠ sep)) = true := by
    intro c hc
    exact decide_eq_true fun he => h (he ▸ List.mem_reverse.1 hc)
  rw [afterLast, List.reverse_append, List.takeWhile_append_of_pos hall, List.reverse_append,
    List.reverse_reverse]
  rfl

theorem afterLast_append {sep : Char} {lead part : Text} (hpart : sep ∉ part)
    (hlead : ∀ c ∈ lead.getLast?, c = sep) : (lead ++ part).afterLast sep = part := by
  rcases List.eq_nil_or_concat' lead with rfl | ⟨l, c, rfl⟩
  · exact afterLast_of_not_mem hpart
  · obtain rfl : c = sep := hlead c (by simp)
    rw [List.append_assoc, List.singleton_append, afterLast_eq, rtakeWhile_span (by simp)]
    exact afterLast_of_not_mem hpart

/-- **The part behind the last separator** is what a text ends with from there on. -/
theorem afterLast_eq_iff {sep : Char} {t part : Text} : t.afterLast sep = part ↔
    sep ∉ part ∧ ∃ lead, t = lead ++ part ∧ ∀ c ∈ lead.getLast?, c = sep := by
  constructor
  · rintro rfl
    obtain ⟨lead, part, rfl, hpart, hlead⟩ := exists_last_span (fun c => decide (c ≠ sep)) t
    have hnot : sep ∉ part := fun h => by simpa using hpart sep h
    have hlast : ∀ c ∈ lead.getLast?, c = sep := fun c hc => by simpa using hlead c hc
    rw [afterLast_append hnot hlast]
    exact ⟨hnot, lead, rfl, hlast⟩
  · rintro ⟨hpart, lead, rfl, hlead⟩
    exact afterLast_append hpart hlead

end Outline.Text
