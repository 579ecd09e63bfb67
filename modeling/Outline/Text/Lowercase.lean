import Outline.Text.Case

/-!
# Lower-case texts

Lower-casing looks at more than one character in two places: capital I with a dot gives two
characters, and capital sigma gives the final form at the end of a word.

* `Text.lowercase` — the lower-case form of a text.
-/

namespace Outline.Text

/-- Whether the first character that is not passed over has case. -/
def casedNext (t : Text) : Bool :=
  match t.dropWhile isCaseIgnorable with
  | c :: _ => isCased c
  | [] => false

/-- The lower-case form of the text that follows `before`, which is kept in reverse. -/
def lowercaseAfter : (before : Text) → Text → Text
  | _, [] => []
  | before, 'Σ' :: r =>
    (if casedNext before && !casedNext r then 'ς' else 'σ') :: lowercaseAfter ('Σ' :: before) r
  | before, 'İ' :: r => 'i' :: '\u0307' :: lowercaseAfter ('İ' :: before) r
  | before, c :: r => lowerOne c :: lowercaseAfter (c :: before) r

/-- The lower-case form of a text. -/
def lowercase (t : Text) : Text := lowercaseAfter [] t

/-- An ASCII text is lower-cased character by character. -/
theorem lowercaseAfter_ascii (before t : Text) (h : ∀ c ∈ t, c.toNat < 128) :
    lowercaseAfter before t = t.map Char.toLower := by
  induction t generalizing before with
  | nil => rfl
  | cons c r ih =>
    have hc := h c (by simp)
    have hr : ∀ d ∈ r, d.toNat < 128 := fun d hd => h d (by simp [hd])
    rw [lowercaseAfter]
    · simp [ih _ hr, lowerOne_of_ascii hc]
    · rintro rfl; revert hc; decide
    · rintro rfl; revert hc; decide

end Outline.Text
