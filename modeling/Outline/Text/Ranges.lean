import Outline.Text.Basic

/-!
# Sets of characters given by ranges

A property of characters is a list of closed ranges of code points.  The tables of this folder
are such lists; `Ranges.has` reads them.
-/

namespace Outline

/-- A set of characters: closed ranges of code points. -/
abbrev Ranges := List (Nat × Nat)

/-- Whether a character lies in one of the ranges. -/
def Ranges.has (rs : Ranges) (c : Char) : Bool :=
  rs.any fun r => r.1 ≤ c.toNat && c.toNat ≤ r.2

theorem Ranges.has_iff (rs : Ranges) (c : Char) :
    rs.has c = true ↔ ∃ r ∈ rs, r.1 ≤ c.toNat ∧ c.toNat ≤ r.2 := by
  simp [Ranges.has]

end Outline
