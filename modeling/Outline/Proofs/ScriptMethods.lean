import Outline.Component.Script

/-!
# The methods of a script

Laws of the scan `Script.methods`.

* `Script.le_offset_of_mem_heads` — the scan never looks back;
* `Script.pairwise_offset_methods` — the offsets of the methods strictly increase.
-/

namespace Outline.Script

theorem byteSize_pos {t : Text} (h : 0 < t.length) : 0 < Text.byteSize t := by
  cases t with
  | nil => cases h
  | cons c r =>
    have hc := c.utf8Size_pos
    rw [Text.byteSize]
    omega

/-- The scan never looks back. -/
theorem le_offset_of_mem_heads (afterWord : Bool) (offset : Nat) (t : Text) :
    ∀ m ∈ heads afterWord offset t, offset ≤ m.offset := by
  fun_induction heads afterWord offset t with
  | case1 => intro m hm; cases hm
  | case2 afterWord offset c r read rest hd ih =>
    intro m hm
    have hle := ih m hm
    omega
  | case3 afterWord offset c r hd n hn ih =>
    intro m hm
    rcases List.mem_cons.1 hm with rfl | hm
    · exact Nat.le_refl offset
    · have hle := ih m hm
      omega
  | case4 afterWord offset c r hd hn ih =>
    intro m hm
    have hle := ih m hm
    omega

/-- A head found later has a greater offset: the name before it takes at least one byte. -/
theorem pairwise_offset_heads (afterWord : Bool) (offset : Nat) (t : Text) :
    (heads afterWord offset t).Pairwise fun a b => a.offset < b.offset := by
  fun_induction heads afterWord offset t with
  | case1 => exact List.Pairwise.nil
  | case2 afterWord offset c r read rest hd ih => exact ih
  | case3 afterWord offset c r hd n hn ih =>
    apply List.Pairwise.cons _ ih
    intro m hm
    have hle := le_offset_of_mem_heads _ _ _ m hm
    have hpos := byteSize_pos (length_name_pos hn)
    rw [Text.byteSize_append] at hle
    show offset < m.offset
    omega
  | case4 afterWord offset c r hd hn ih => exact ih

/-- **The methods stand in text order**, no two at the same place. -/
theorem pairwise_offset_methods (script : Text) :
    (methods script).Pairwise fun a b => a.offset < b.offset :=
  (pairwise_offset_heads false 0 script).sublist List.filter_sublist

end Outline.Script
