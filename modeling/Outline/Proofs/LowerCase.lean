import Outline.Text.Lowercase

/-!
# Lower-case texts without surprises

Lower-casing a text follows the whole of Unicode, and lower-casing ASCII letters alone does not.
Where the result has only ASCII characters other than `k`, and blanks, the two agree: no other
character becomes one of these.  (The Kelvin sign becomes a `k`.)

* `IsSettled` — the characters with this property;
* `lowerOne_eq_toLower`, `Text.lowercase_eq_map` — where the result is settled, ASCII
  lower-casing gives it too;
* `isBlank_toLower`, `Text.map_toLower_trimEnd` — ASCII lower-casing keeps blanks;
* `IsLower`, `Text.lowercase_lowercase` — the characters that lower-casing leaves alone; it gives only
  these, so that a second run changes nothing.
-/

namespace Outline

/-! ### ASCII letters -/

theorem toLower_of_not_ascii {c : Char} (h : ¬c.toNat < 128) : c.toLower = c := by
  refine dif_neg ?_
  rintro ⟨-, hle⟩
  have hle : c.toNat ≤ 'Z'.toNat := hle
  exact h (Nat.lt_of_le_of_lt hle (by decide))

/-- A fact about all ASCII characters. -/
theorem forall_ascii {P : Char → Prop} (h : ∀ n < 128, P (Char.ofNat n)) {c : Char}
    (hc : c.toNat < 128) : P c := by
  have := h c.toNat hc
  rwa [Char.ofNat_toNat] at this

theorem isBlank_toLower (c : Char) : isBlank c.toLower = isBlank c := by
  by_cases hc : c.toNat < 128
  · revert c
    exact fun c hc => forall_ascii (P := fun c => isBlank c.toLower = isBlank c) (by decide) hc
  · rw [toLower_of_not_ascii hc]

theorem toLower_idem (c : Char) : c.toLower.toLower = c.toLower := by
  by_cases hc : c.toNat < 128
  · exact forall_ascii (P := fun c => c.toLower.toLower = c.toLower) (by decide) hc
  · rw [toLower_of_not_ascii hc, toLower_of_not_ascii hc]

theorem ascii_of_toLower {c : Char} (h : c.toLower.toNat < 128) : c.toNat < 128 := by
  by_cases hc : c.toNat < 128
  · exact hc
  · rwa [toLower_of_not_ascii hc] at h

/-! ### Settled characters -/

/-- Whether no character but the forms of an ASCII letter becomes this one. -/
def IsSettled (c : Char) : Prop := isBlank c = true ∨ c.toNat < 128 ∧ c ≠ 'k'

instance (c : Char) : Decidable (IsSettled c) := inferInstanceAs (Decidable (_ ∨ _))

theorem IsSettled.of_toLower {c : Char} (h : IsSettled c.toLower) : IsSettled c := by
  rcases h with h | ⟨hascii, hk⟩
  · exact Or.inl (isBlank_toLower c ▸ h)
  · refine Or.inr ⟨ascii_of_toLower hascii, ?_⟩
    rintro rfl
    exact hk (by decide)

/-- The blanks beyond ASCII. -/
def farBlanks : Ranges :=
  [(0x85, 0x85), (0xA0, 0xA0), (0x1680, 0x1680), (0x2000, 0x200A), (0x2028, 0x2029),
   (0x202F, 0x202F), (0x205F, 0x205F), (0x3000, 0x3000)]

theorem isBlank_of_not_ascii {c : Char} (h : ¬c.toNat < 128) : isBlank c = farBlanks.has c := by
  unfold isBlank farBlanks
  simp only [Ranges.has, List.any_cons, List.any_nil]
  rw [Bool.eq_iff_iff]
  simp
  omega

/-- Whether the lower-case forms of a run are characters beyond ASCII, and no blanks. -/
def CaseRun.Clear (r : CaseRun) : Prop :=
  128 ≤ r.first + r.shift ∧
    (r.last + r.shift < 0xD800 ∨ 0xE000 ≤ r.first + r.shift ∧ r.last + r.shift < 0x110000) ∧
    ∀ b ∈ farBlanks, b.2 < r.first + r.shift ∨ r.last + r.shift < b.1

instance (r : CaseRun) : Decidable r.Clear := inferInstanceAs (Decidable (_ ∧ _ ∧ _))

/-- Only the Kelvin sign becomes an ASCII character. -/
theorem clear_of_mem_lowerRuns : ∀ r ∈ lowerRuns, r.Clear ∨
    r.first = 0x212A ∧ r.last = 0x212A ∧ r.shift = -8383 := by
  decide +kernel

theorem CaseRun.has_iff {r : CaseRun} {n : Nat} :
    r.has n = true ↔ r.first ≤ n ∧ n ≤ r.last ∧ (n - r.first) % r.step = 0 := by
  simp [has, and_assoc]

/-- The code point of a lower-case form that a clear run gives, which is none of ASCII. -/
theorem CaseRun.Clear.toNat_form {r : CaseRun} (h : r.Clear) {n : Nat} (hn : r.has n = true) :
    ((Char.ofNat (n + r.shift).toNat).toNat : Int) = n + r.shift ∧
      128 ≤ (Char.ofNat (n + r.shift).toNat).toNat := by
  obtain ⟨hfar, hvalid, -⟩ := h
  obtain ⟨hfirst, hlast, -⟩ := has_iff.1 hn
  have hchar : (Char.ofNat (n + r.shift).toNat).toNat = (n + r.shift).toNat := by
    have hvalid : (n + r.shift).toNat.isValidChar := by
      rw [Nat.isValidChar]
      omega
    rw [Char.ofNat, dif_pos hvalid]
    rfl
  omega

/-- What a clear run turns a character into is not settled. -/
theorem CaseRun.Clear.not_settled {r : CaseRun} (h : r.Clear) {n : Nat} (hn : r.has n = true) :
    ¬IsSettled (Char.ofNat (n + r.shift).toNat) := by
  obtain ⟨hform, hfar⟩ := h.toNat_form hn
  obtain ⟨hfirst, hlast, -⟩ := has_iff.1 hn
  rintro (hblank | ⟨hascii, -⟩)
  · rw [isBlank_of_not_ascii (by omega), Ranges.has_iff] at hblank
    obtain ⟨b, hb, hlow, hhigh⟩ := hblank
    have := h.2.2 b hb
    omega
  · omega

/-- A character beyond ASCII stays as it is, or a clear run has it, or it is the Kelvin sign. -/
theorem lowerOne_cases {c : Char} (hc : ¬c.toNat < 128) :
    lowerOne c = c ∨
      (∃ r ∈ lowerRuns, r.Clear ∧ r.has c.toNat = true ∧
        lowerOne c = Char.ofNat (c.toNat + r.shift).toNat) ∨
      c = '\u212A' := by
  rw [lowerOne, if_neg hc]
  cases hrun : lowerRuns.find? (·.has c.toNat) with
  | none => exact Or.inl rfl
  | some r =>
    have hmem := List.mem_of_find?_eq_some hrun
    have hhas := List.find?_some hrun
    obtain hclear | ⟨hf, hl, -⟩ := clear_of_mem_lowerRuns r hmem
    · exact Or.inr (Or.inl ⟨r, hmem, hclear, hhas, rfl⟩)
    · obtain ⟨hfirst, hlast, -⟩ := CaseRun.has_iff.1 hhas
      have hn : c.toNat = 0x212A := by omega
      rw [← Char.ofNat_toNat c, hn]
      exact Or.inr (Or.inr rfl)

/-- Where the lower-case form of a character is settled, it is the ASCII form. -/
theorem lowerOne_eq_toLower {c : Char} (h : IsSettled (lowerOne c)) : lowerOne c = c.toLower := by
  by_cases hc : c.toNat < 128
  · exact lowerOne_of_ascii hc
  obtain hsame | ⟨r, -, hclear, hhas, hform⟩ | rfl := lowerOne_cases hc
  · rw [hsame, toLower_of_not_ascii hc]
  · rw [hform] at h
    exact absurd h (hclear.not_settled hhas)
  · exact absurd h (by decide)

/-! ### Lower-case characters -/

/-- A character that lower-casing leaves as it is, wherever it stands. -/
structure IsLower (c : Char) : Prop where
  kept : lowerOne c = c
  ne_sigma : c ≠ 'Σ'
  ne_dotted : c ≠ 'İ'

instance (c : Char) : Decidable (IsLower c) :=
  decidable_of_iff (lowerOne c = c ∧ c ≠ 'Σ' ∧ c ≠ 'İ')
    ⟨fun h => ⟨h.1, h.2.1, h.2.2⟩, fun h => ⟨h.kept, h.ne_sigma, h.ne_dotted⟩⟩

/-- The characters that have a lower-case form, capital I with a dot among them. -/
def upperRuns : List CaseRun := ⟨0x130, 0x130, 1, 0⟩ :: lowerRuns

/-- Whether a run has no character from `low` to `high`, or only such as stand between those that are
`gapped`: two code points apart. -/
def CaseRun.misses (s : CaseRun) (low high : Nat) (gapped : Bool) : Bool :=
  high.blt s.first || s.last.blt low ||
    gapped && s.step.beq 2 && ((low - s.first) % 2).beq 1

/-- No character is a lower-case form and has one. -/
theorem misses_of_mem_lowerRuns : ∀ r ∈ lowerRuns, upperRuns.all (·.misses (r.first + r.shift).toNat
    (r.last + r.shift).toNat (r.first.beq r.last || r.step.beq 2)) = true := by
  decide +kernel

theorem CaseRun.Clear.not_has {r s : CaseRun} (h : r.Clear) (hr : r ∈ lowerRuns) (hs : s ∈ upperRuns)
    {n : Nat} (hn : r.has n = true) : s.has (Char.ofNat (n + r.shift).toNat).toNat = false := by
  have hmisses := List.all_eq_true.1 (misses_of_mem_lowerRuns r hr) s hs
  simp only [misses, Bool.or_eq_true, Bool.and_eq_true, Nat.blt_eq, Nat.beq_eq] at hmisses
  obtain ⟨hform, -⟩ := h.toNat_form hn
  obtain ⟨hfirst, hlast, hstep⟩ := has_iff.1 hn
  rw [Bool.eq_false_iff]
  intro hs
  obtain ⟨hfirst', hlast', hstep'⟩ := has_iff.1 hs
  obtain (hlow | hhigh) | ⟨⟨hone | htwo, htwo'⟩, hgap⟩ := hmisses
  · omega
  · omega
  · rw [htwo'] at hstep'
    omega
  · rw [htwo'] at hstep'
    rw [htwo] at hstep
    omega

/-- A character beyond ASCII that no run has is lower-case. -/
theorem isLower_of_not_has {c : Char} (hc : ¬c.toNat < 128)
    (h : ∀ s ∈ upperRuns, s.has c.toNat = false) : IsLower c := by
  have hne : ∀ d : Char, (∃ s ∈ upperRuns, s.has d.toNat = true) → c ≠ d := by
    rintro d ⟨s, hs, hhas⟩ rfl
    rw [h s hs] at hhas
    cases hhas
  refine ⟨?_, hne _ (by decide), hne _ (by decide)⟩
  have hnone : lowerRuns.find? (·.has c.toNat) = none := by
    rw [List.find?_eq_none]
    intro s hs
    rw [h s (List.mem_cons_of_mem _ hs)]
    exact Bool.false_ne_true
  rw [lowerOne, if_neg hc, hnone]

/-- **The lower-case form of a character is lower-case.** -/
theorem isLower_lowerOne {c : Char} (hsigma : c ≠ 'Σ') (hdotted : c ≠ 'İ') : IsLower (lowerOne c) := by
  by_cases hc : c.toNat < 128
  · rw [lowerOne_of_ascii hc]
    exact forall_ascii (P := fun c => IsLower c.toLower) (by decide) hc
  obtain hsame | ⟨r, hr, hclear, hhas, hform⟩ | rfl := lowerOne_cases hc
  · rw [hsame]
    exact ⟨hsame, hsigma, hdotted⟩
  · rw [hform]
    have hfar := (hclear.toNat_form hhas).2
    exact isLower_of_not_has (by omega) fun s hs => hclear.not_has hr hs hhas
  · decide

/-- What has a blank for its lower-case form is a blank. -/
theorem isBlank_of_lowerOne {c : Char} (h : isBlank (lowerOne c) = true) : isBlank c = true := by
  rwa [lowerOne_eq_toLower (Or.inl h), isBlank_toLower] at h

namespace Text

/-- **Where lower-casing gives settled characters only, it lower-cases ASCII letters only.** -/
theorem lowercaseAfter_eq_map {before t : Text} (h : ∀ d ∈ lowercaseAfter before t, IsSettled d) :
    lowercaseAfter before t = t.map Char.toLower := by
  fun_induction lowercaseAfter before t with
  | case1 => rfl
  | case2 before r ih =>
    have hsigma := h _ List.mem_cons_self
    split at hsigma <;> exact absurd hsigma (by decide)
  | case3 before r ih =>
    exact absurd (h '\u0307' (List.mem_cons_of_mem _ List.mem_cons_self)) (by decide)
  | case4 before c r _ _ ih =>
    obtain ⟨hc, hr⟩ := List.forall_mem_cons.1 h
    rw [ih hr, lowerOne_eq_toLower hc]
    rfl

theorem lowercase_eq_map {t : Text} (h : ∀ d ∈ t.lowercase, IsSettled d) :
    t.lowercase = t.map Char.toLower :=
  lowercaseAfter_eq_map h

/-! ### Lower-casing twice -/

theorem isLower_of_mem_lowercaseAfter {before t : Text} :
    ∀ c ∈ lowercaseAfter before t, IsLower c := by
  fun_induction lowercaseAfter before t with
  | case1 => exact List.forall_mem_nil _
  | case2 before r ih =>
    refine List.forall_mem_cons.2 ⟨?_, ih⟩
    split <;> decide
  | case3 before r ih =>
    exact List.forall_mem_cons.2 ⟨by decide, List.forall_mem_cons.2 ⟨by decide, ih⟩⟩
  | case4 before c r hsigma hdotted ih =>
    exact List.forall_mem_cons.2 ⟨isLower_lowerOne hsigma hdotted, ih⟩

theorem lowercaseAfter_eq_self {before t : Text} (h : ∀ c ∈ t, IsLower c) :
    lowercaseAfter before t = t := by
  induction t generalizing before with
  | nil => rfl
  | cons c r ih =>
    obtain ⟨hc, hr⟩ := List.forall_mem_cons.1 h
    rw [lowercaseAfter, ih hr, hc.kept]
    · exact hc.ne_sigma
    · exact hc.ne_dotted

/-- **A lower-case text is lower-cased no further.** -/
theorem lowercase_lowercase (t : Text) : t.lowercase.lowercase = t.lowercase :=
  lowercaseAfter_eq_self isLower_of_mem_lowercaseAfter

/-- Every character has a form of its own, which ends in a blank only if the character is one. -/
theorem lowercaseAfter_cons (before : Text) (c : Char) (r : Text) :
    ∃ form d, lowercaseAfter before (c :: r) = form ++ d :: lowercaseAfter (c :: before) r ∧
      (isBlank d = true → isBlank c = true) := by
  by_cases hsigma : c = 'Σ'
  · subst hsigma
    refine ⟨[], _, rfl, fun h => absurd h ?_⟩
    split <;> decide
  by_cases hdotted : c = 'İ'
  · subst hdotted
    exact ⟨['i'], '\u0307', rfl, fun h => absurd h (by decide)⟩
  · refine ⟨[], lowerOne c, ?_, isBlank_of_lowerOne⟩
    rw [lowercaseAfter]
    · rfl
    · exact hsigma
    · exact hdotted

theorem lowercaseAfter_concat (before s : Text) (c : Char) :
    ∃ t d, lowercaseAfter before (s ++ [c]) = t ++ [d] ∧ (isBlank d = true → isBlank c = true) := by
  induction s generalizing before with
  | nil =>
    obtain ⟨form, d, heq, hd⟩ := lowercaseAfter_cons before c []
    exact ⟨form, d, heq, hd⟩
  | cons a s ih =>
    obtain ⟨form, b, heq, -⟩ := lowercaseAfter_cons before a (s ++ [c])
    obtain ⟨t, d, hrest, hd⟩ := ih (a :: before)
    exact ⟨form ++ b :: t, d, by rw [List.cons_append, heq, hrest]; simp, hd⟩

/-- A text that does not end in a blank does not so when it is lower-cased. -/
theorem getLast?_lowercase {t : Text} (h : ∀ c ∈ t.getLast?, isBlank c = false) :
    ∀ d ∈ t.lowercase.getLast?, isBlank d = false := by
  rcases List.eq_nil_or_concat t with rfl | ⟨s, c, rfl⟩
  · simp [lowercase, lowercaseAfter]
  · rw [List.concat_eq_append] at *
    obtain ⟨u, d, heq, hd⟩ := lowercaseAfter_concat [] s c
    have hc : isBlank c = false := h c List.getLast?_concat
    rw [lowercase, heq, List.getLast?_concat]
    intro e he
    rw [← Option.some.inj he, Bool.eq_false_iff]
    intro hblank
    rw [hd hblank] at hc
    cases hc

/-! ### Blanks at the end -/

theorem map_toLower_trimEnd (t : Text) :
    t.trimEnd.map Char.toLower = trimEnd (t.map Char.toLower) := by
  have hblank : isBlank ∘ Char.toLower = isBlank := funext isBlank_toLower
  unfold trimEnd dropEndWhile
  rw [← List.map_reverse, List.dropWhile_map, hblank, List.map_reverse]

theorem trimEnd_prefix (t : Text) : t.trimEnd <+: t := by
  rw [← List.reverse_suffix]
  unfold trimEnd dropEndWhile
  rw [List.reverse_reverse]
  exact List.dropWhile_suffix isBlank

theorem trimEnd_cons {c : Char} (h : isBlank c = false) (t : Text) :
    trimEnd (c :: t) = c :: t.trimEnd := by
  unfold trimEnd dropEndWhile
  rw [List.reverse_cons, List.dropWhile_append]
  split
  · rename_i hnil
    rw [List.isEmpty_iff.1 hnil]
    simp [h]
  · rw [List.reverse_append]
    rfl

theorem mem_trimEnd_or_isBlank {t : Text} {c : Char} (h : c ∈ t) :
    c ∈ t.trimEnd ∨ isBlank c = true := by
  have hsplit : c ∈ t.reverse.takeWhile isBlank ++ t.reverse.dropWhile isBlank := by
    rw [List.takeWhile_append_dropWhile]
    exact List.mem_reverse.2 h
  rcases List.mem_append.1 hsplit with h | h
  · exact Or.inr (List.all_eq_true.1 List.all_takeWhile c h)
  · exact Or.inl (List.mem_reverse.2 h)

end Text

end Outline
