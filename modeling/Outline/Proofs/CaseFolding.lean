import Outline.Priority
import Outline.Proofs.LowerCase
import Outline.Proofs.Markers

/-!
# Case folding

Two characters are equal but for case if Unicode's simple case folding takes them to one character.
A search for ASCII words need not know all of it.

* `foldRuns`, `foldOne` — simple case folding: mostly the lower-case form, with exceptions;
* `foldOne_eq_iff` — which characters fold to one of ASCII is told by `foldLetter` already;
* `FoldedIn` — whether a word stands in a text, but for case;
* `hasImportantName_iff` — the important names are searched for under the whole of case folding.
-/

namespace Outline

/-! ### Simple case folding -/

/-- The characters whose simple folding is not the lower-case form: lower-case letters with a second
form, and the Cherokee letters, which fold to upper case. -/
def foldRuns : List CaseRun :=
  [⟨0xB5, 0xB5, 1, 775⟩, ⟨0x17F, 0x17F, 1, -268⟩, ⟨0x345, 0x345, 1, 116⟩, ⟨0x3C2, 0x3C2, 1, 1⟩,
   ⟨0x3D0, 0x3D0, 1, -30⟩, ⟨0x3D1, 0x3D1, 1, -25⟩, ⟨0x3D5, 0x3D5, 1, -15⟩,
   ⟨0x3D6, 0x3D6, 1, -22⟩, ⟨0x3F0, 0x3F0, 1, -54⟩, ⟨0x3F1, 0x3F1, 1, -48⟩,
   ⟨0x3F5, 0x3F5, 1, -64⟩, ⟨0x13A0, 0x13F5, 1, 0⟩, ⟨0x13F8, 0x13FD, 1, -8⟩,
   ⟨0x1C80, 0x1C80, 1, -6222⟩, ⟨0x1C81, 0x1C81, 1, -6221⟩, ⟨0x1C82, 0x1C82, 1, -6212⟩,
   ⟨0x1C83, 0x1C84, 1, -6210⟩, ⟨0x1C85, 0x1C85, 1, -6211⟩, ⟨0x1C86, 0x1C86, 1, -6204⟩,
   ⟨0x1C87, 0x1C87, 1, -6180⟩, ⟨0x1C88, 0x1C88, 1, 35267⟩, ⟨0x1E9B, 0x1E9B, 1, -58⟩,
   ⟨0x1FBE, 0x1FBE, 1, -7173⟩, ⟨0x1FD3, 0x1FD3, 1, -7235⟩, ⟨0x1FE3, 0x1FE3, 1, -7219⟩,
   ⟨0xAB70, 0xABBF, 1, -38864⟩, ⟨0xFB05, 0xFB05, 1, 1⟩]

/-- The simple case folding of a character. -/
def foldOne (c : Char) : Char :=
  match foldRuns.find? (·.has c.toNat) with
  | some r => Char.ofNat (c.toNat + r.shift).toNat
  | none => lowerOne c

/-- Folding gives characters beyond ASCII, but for the long s. -/
theorem clear_of_mem_foldRuns : ∀ r ∈ foldRuns, r.Clear ∨
    r.first = 0x17F ∧ r.last = 0x17F ∧ r.shift = -268 := by
  decide +kernel

/-- An ASCII character is in none of these runs. -/
theorem foldOne_of_ascii {c : Char} (h : c.toNat < 128) : foldOne c = c.toLower := by
  have hfar : ∀ r ∈ foldRuns, 128 ≤ r.first := by decide
  have hnone : foldRuns.find? (·.has c.toNat) = none := by
    rw [List.find?_eq_none]
    intro r hr hhas
    have hfirst := (CaseRun.has_iff.1 hhas).1
    have := hfar r hr
    omega
  rw [foldOne, hnone]
  exact lowerOne_of_ascii h

/-- A character beyond ASCII folds to one beyond ASCII, unless it is the long s or the Kelvin sign. -/
theorem not_ascii_foldOne {c : Char} (h : ¬c.toNat < 128) (hlong : c ≠ 'ſ') (hkelvin : c ≠ '\u212A') :
    ¬(foldOne c).toNat < 128 := by
  cases hrun : foldRuns.find? (·.has c.toNat) with
  | some r =>
    have hhas := List.find?_some hrun
    have hfold : foldOne c = Char.ofNat (c.toNat + r.shift).toNat := by rw [foldOne, hrun]
    obtain hclear | ⟨hf, hl, -⟩ := clear_of_mem_foldRuns r (List.mem_of_find?_eq_some hrun)
    · rw [hfold]
      exact Nat.not_lt.2 (hclear.toNat_form hhas).2
    · obtain ⟨hfirst, hlast, -⟩ := CaseRun.has_iff.1 hhas
      have hn : c.toNat = 0x17F := by omega
      rw [← Char.ofNat_toNat c, hn] at hlong
      exact absurd rfl hlong
  | none =>
    have hfold : foldOne c = lowerOne c := by rw [foldOne, hrun]
    rw [hfold]
    obtain hsame | ⟨r, -, hclear, hhas, hform⟩ | hsign := lowerOne_cases h
    · rw [hsame]
      exact h
    · rw [hform]
      exact Nat.not_lt.2 (hclear.toNat_form hhas).2
    · exact absurd hsign hkelvin

/-- **Which characters fold to one of ASCII** is told by `foldLetter`: its letters in either case,
the long s and the Kelvin sign. -/
theorem foldOne_eq_iff {c k : Char} (hk : k.toNat < 128) : foldOne c = k ↔ foldLetter c = k := by
  by_cases hlong : c = 'ſ'
  · rw [hlong, show foldOne 'ſ' = foldLetter 'ſ' by decide +kernel]
  by_cases hkelvin : c = '\u212A'
  · rw [hkelvin, show foldOne '\u212A' = foldLetter '\u212A' by decide +kernel]
  rw [foldLetter, if_neg hlong, if_neg hkelvin]
  by_cases hc : c.toNat < 128
  · rw [foldOne_of_ascii hc]
  · have hfar := not_ascii_foldOne hc hlong hkelvin
    rw [toLower_of_not_ascii hc]
    constructor
    · rintro rfl
      exact absurd hk hfar
    · rintro rfl
      exact absurd hk hc

/-! ### Words in texts -/

/-- Whether a word stands in a text but for case. -/
def FoldedIn (word t : Text) : Prop := ∃ part, part <:+: t ∧ part.map foldOne = word.map foldOne

theorem map_foldOne_eq_iff {word : Text} (hword : ∀ k ∈ word, k.toNat < 128) {t : Text} :
    t.map foldOne = word ↔ t.map foldLetter = word := by
  induction word generalizing t with
  | nil => simp
  | cons k word ih =>
    obtain ⟨hk, hword⟩ := List.forall_mem_cons.1 hword
    cases t with
    | nil => simp
    | cons c t => simp only [List.map_cons, List.cons.injEq, foldOne_eq_iff hk, ih hword]

/-- The important names are ASCII words in lower case. -/
theorem plain_of_mem_importantNames {word : Text} (h : word ∈ importantNames) {k : Char}
    (hk : k ∈ word) : k.toNat < 128 ∧ k.toLower = k := by
  have hall : importantNames.all (·.all fun k => k.toNat < 128 ∧ k.toLower = k) = true := by decide
  simpa using List.all_eq_true.1 (List.all_eq_true.1 hall word h) k hk

/-- **A path bears an important name if one stands in it but for case.** -/
theorem hasImportantName_iff {t : Text} :
    hasImportantName t = true ↔ ∃ word ∈ importantNames, FoldedIn word t := by
  rw [hasImportantName, List.any_eq_true]
  refine exists_congr fun word => and_congr_right fun hmem => ?_
  have hplain := fun k (hk : k ∈ word) => plain_of_mem_importantNames hmem hk
  have hsame : word.map foldOne = word :=
    (List.map_congr_left fun k hk =>
      (foldOne_of_ascii (hplain k hk).1).trans (hplain k hk).2).trans (List.map_id _)
  have hoccurs : Text.occurs word (t.map foldLetter) = true ↔ word <:+: t.map foldLetter := by
    rw [Text.occurs, Option.isSome_iff_ne_none, ne_eq, Text.cut?_eq_none_iff, not_not]
  rw [hoccurs, List.infix_map_iff, FoldedIn, hsame]
  refine exists_congr fun part => and_congr_right fun _ => ?_
  rw [map_foldOne_eq_iff fun k hk => (hplain k hk).1, eq_comm]

end Outline
