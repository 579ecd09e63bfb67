import Outline.Proofs.Encoding

/-!
# Parts by byte offset

What `Text.slice` reads of the bytes of a text.

* `Text.Seam` — a byte offset between two characters, or at an end of the text;
* `Text.slice_eq_some_iff`, `Text.exists_slice_iff` — a slice is what stands between two seams;
* `Text.seam_of_firstByte`, `Text.prefix_of_utf8_prefix` — the first byte of a character stands at a
  seam, and tells with those behind it which character it is;
* `Text.slice_of_agree` — so a slice that is not empty is told by its bytes;
* `Text.Agree.slice_eq` — texts that have the same bytes in a range, and a character there, have the
  same slices there.
-/

namespace Outline

/-- The bytes of a text are read as that text, whatever follows them. -/
theorem Utf8.pieces_utf8_append (t : Text) (s : Bytes) :
    pieces (t.utf8 ++ s) = t.map some ++ pieces s := by
  induction t with
  | nil => rfl
  | cons c t ih =>
    rw [Text.utf8, List.flatMap_cons, List.append_assoc, pieces_encode, List.map_cons,
      List.cons_append, ← ih]
    rfl

namespace Text

/-! ### Slices and seams -/

theorem dropBytes?_eq_some_iff {n : Nat} {t r : Text} :
    dropBytes? n t = some r ↔ ∃ s, t = s ++ r ∧ byteSize s = n := by
  constructor
  · intro h
    fun_induction dropBytes? n t with
    | case1 =>
      cases h
      exact ⟨[], rfl, rfl⟩
    | case2 => cases h
    | case3 c t =>
      cases h
      exact ⟨[], rfl, rfl⟩
    | case4 n c t hn hle ih =>
      obtain ⟨s, rfl, hs⟩ := ih h
      refine ⟨c :: s, rfl, ?_⟩
      rw [byteSize, hs]
      omega
    | case5 => cases h
  · rintro ⟨s, rfl, rfl⟩
    exact dropBytes?_byteSize s r

theorem takeBytes?_eq_some_iff {n : Nat} {t s : Text} :
    takeBytes? n t = some s ↔ s <+: t ∧ byteSize s = n := by
  constructor
  · intro h
    fun_induction takeBytes? n t generalizing s with
    | case1 =>
      cases h
      exact ⟨List.nil_prefix, rfl⟩
    | case2 => cases h
    | case3 c t =>
      cases h
      exact ⟨List.nil_prefix, rfl⟩
    | case4 n c t hn hle ih =>
      obtain ⟨r, hr, rfl⟩ := Option.map_eq_some_iff.1 h
      obtain ⟨hstarts, hsize⟩ := ih hr
      refine ⟨List.cons_prefix_cons.2 ⟨rfl, hstarts⟩, ?_⟩
      rw [byteSize, hsize]
      omega
    | case5 => cases h
  · rintro ⟨⟨r, rfl⟩, rfl⟩
    exact takeBytes?_byteSize s r

/-- **A slice** is the middle of a text, told by the sizes of what is before it and of itself. -/
theorem slice_eq_some_iff {t m : Text} {i j : Nat} : t.slice i j = some m ↔
    ∃ s r, t = s ++ (m ++ r) ∧ byteSize s = i ∧ i + byteSize m = j := by
  constructor
  · intro h
    rw [slice] at h
    split at h
    · obtain ⟨r, hdrop, htake⟩ := Option.bind_eq_some_iff.1 h
      obtain ⟨s, rfl, hs⟩ := dropBytes?_eq_some_iff.1 hdrop
      obtain ⟨⟨r, rfl⟩, hm⟩ := takeBytes?_eq_some_iff.1 htake
      exact ⟨s, r, rfl, hs, by omega⟩
    · cases h
  · rintro ⟨s, r, rfl, rfl, rfl⟩
    rw [← List.append_assoc]
    exact slice_append s m r

/-- A byte offset between two characters of a text, or at one of its ends. -/
def Seam (t : Text) (i : Nat) : Prop := ∃ s r, t = s ++ r ∧ byteSize s = i

theorem byteSize_eq_zero_iff {t : Text} : byteSize t = 0 ↔ t = [] := by
  cases t with
  | nil => exact iff_of_true rfl rfl
  | cons c t =>
    have hc := c.utf8Size_pos
    refine iff_of_false ?_ (List.cons_ne_nil c t)
    rw [byteSize]
    omega

/-- Between two seams there is a slice, and only there. -/
theorem exists_slice_iff {t : Text} {i j : Nat} :
    (∃ m, t.slice i j = some m) ↔ i ≤ j ∧ t.Seam i ∧ t.Seam j := by
  constructor
  · rintro ⟨m, h⟩
    obtain ⟨s, r, rfl, rfl, rfl⟩ := slice_eq_some_iff.1 h
    refine ⟨Nat.le_add_right _ _, ⟨s, m ++ r, rfl, rfl⟩, s ++ m, r, ?_, byteSize_append s m⟩
    rw [List.append_assoc]
  · rintro ⟨hle, ⟨s, r, rfl, rfl⟩, s', r', heq, rfl⟩
    rcases List.append_eq_append_iff.1 heq with ⟨m, rfl, rfl⟩ | ⟨m, rfl, rfl⟩
    · exact ⟨m, slice_eq_some_iff.2 ⟨s, r', rfl, rfl, (byteSize_append s m).symm⟩⟩
    · rw [byteSize_append] at hle
      obtain rfl : m = [] := byteSize_eq_zero_iff.1 (by omega)
      rw [List.append_nil]
      exact ⟨[], slice_eq_some_iff.2 ⟨s', r, rfl, rfl, rfl⟩⟩

/-- At a seam there is the empty slice. -/
theorem slice_eq_nil_iff {t : Text} {i j : Nat} : t.slice i j = some [] ↔ i = j ∧ t.Seam i := by
  constructor
  · intro h
    obtain ⟨s, r, rfl, rfl, hj⟩ := slice_eq_some_iff.1 h
    exact ⟨hj, s, r, rfl, rfl⟩
  · rintro ⟨rfl, s, r, rfl, rfl⟩
    exact slice_eq_some_iff.2 ⟨s, r, rfl, rfl, rfl⟩

/-! ### First bytes -/

theorem utf8_cons (c : Char) (t : Text) : utf8 (c :: t) = String.utf8EncodeChar c ++ utf8 t := by
  rw [utf8, List.flatMap_cons]
  rfl

/-- A text begins with the first byte of a character. -/
theorem exists_firstByte {m : Text} (h : m ≠ []) :
    ∃ b, m.utf8[0]? = some b ∧ b.IsUTF8FirstByte := by
  obtain ⟨c, m, rfl⟩ := List.exists_cons_of_ne_nil h
  have hpos : 0 < (String.utf8EncodeChar c).length := by
    rw [String.length_utf8EncodeChar]
    exact c.utf8Size_pos
  refine ⟨(String.utf8EncodeChar c)[0], ?_, UInt8.isUTF8FirstByte_getElem_zero_utf8EncodeChar⟩
  rw [utf8_cons, List.getElem?_append_left hpos, List.getElem?_eq_getElem hpos]

/-- **Where the first byte of a character stands, there is a seam.** -/
theorem seam_of_firstByte {t : Text} {i : Nat} {b : UInt8} (h : t.utf8[i]? = some b)
    (hb : b.IsUTF8FirstByte) : t.Seam i := by
  induction t generalizing i with
  | nil => cases h
  | cons c t ih =>
    rw [utf8_cons] at h
    rcases Nat.lt_or_ge i (String.utf8EncodeChar c).length with hlt | hge
    · rw [List.getElem?_append_left hlt, List.getElem?_eq_getElem hlt] at h
      rw [← Option.some.inj h] at hb
      obtain rfl := UInt8.isUTF8FirstByte_getElem_utf8EncodeChar.1 hb
      exact ⟨[], c :: t, rfl, rfl⟩
    · rw [List.getElem?_append_right hge] at h
      obtain ⟨s, r, rfl, hs⟩ := ih h
      refine ⟨c :: s, r, rfl, ?_⟩
      rw [String.length_utf8EncodeChar] at hs hge
      rw [byteSize, hs]
      omega

/-- No character's bytes begin those of another one. -/
theorem prefix_of_utf8_prefix {m r : Text} (h : m.utf8 <+: r.utf8) : m <+: r := by
  obtain ⟨s, hs⟩ := h
  have hpieces := congrArg Utf8.pieces hs
  rw [Utf8.pieces_utf8_append, ← List.append_nil r.utf8, Utf8.pieces_utf8_append] at hpieces
  rw [show Utf8.pieces [] = [] by rw [Utf8.pieces], List.append_nil] at hpieces
  obtain ⟨m', r', rfl, hm, -⟩ := List.map_eq_append_iff.1 hpieces.symm
  obtain rfl := (List.map_inj_right fun _ _ => Option.some.inj).1 hm
  exact List.prefix_append m' r'

/-! ### Texts that agree in a range -/

/-- Two texts have the same bytes from `i` on up to `j`. -/
def Agree (i j : Nat) (t t' : Text) : Prop := ∀ k, i ≤ k → k < j → t.utf8[k]? = t'.utf8[k]?

theorem Agree.symm {i j : Nat} {t t' : Text} (h : Agree i j t t') : Agree i j t' t :=
  fun k hi hj => (h k hi hj).symm

/-- **A slice that is not empty is told by its bytes.**  Where it begins is told by the first of them,
and where it ends by all of them. -/
theorem slice_of_agree {i j : Nat} {t t' m : Text} (hagree : Agree i j t t') (hm : m ≠ [])
    (h : t.slice i j = some m) : t'.slice i j = some m := by
  obtain ⟨s, r, rfl, rfl, rfl⟩ := slice_eq_some_iff.1 h
  have hbytes : ∀ k < m.utf8.length, t'.utf8[byteSize s + k]? = m.utf8[k]? := by
    intro k hk
    have hlt : k < byteSize m := length_utf8 m ▸ hk
    rw [← hagree (byteSize s + k) (by omega) (by omega), utf8_append, ← length_utf8 s,
      List.getElem?_append_right (by omega), Nat.add_sub_cancel_left, utf8_append,
      List.getElem?_append_left hk]
  obtain ⟨b, hb, hfirst⟩ := exists_firstByte hm
  have hpos : 0 < m.utf8.length := (List.getElem?_eq_some_iff.1 hb).1
  -- the slice begins with the first byte of a character, so the other text has a seam there
  have hseam : t'.Seam (byteSize s) := seam_of_firstByte ((hbytes 0 hpos).trans hb) hfirst
  obtain ⟨s', r', rfl, hs⟩ := hseam
  have hstarts : m.utf8 <+: r'.utf8 := by
    rw [List.prefix_iff_getElem?]
    intro k hk
    rw [← List.getElem?_eq_getElem hk, ← hbytes k hk, utf8_append, ← hs, ← length_utf8 s',
      List.getElem?_append_right (by omega), Nat.add_sub_cancel_left]
  obtain ⟨r'', rfl⟩ := prefix_of_utf8_prefix hstarts
  exact slice_eq_some_iff.2 ⟨s', r'', rfl, hs, rfl⟩

section

variable {start stop : Nat} {t t' : Text}

/-- Some character of a text has its bytes in the range. -/
def ShowsIn (start stop : Nat) (t : Text) : Prop :=
  ∃ i j m, start ≤ i ∧ j ≤ stop ∧ m ≠ [] ∧ t.slice i j = some m

theorem Agree.mono (hagree : Agree start stop t t') {i j : Nat} (hi : start ≤ i) (hj : j ≤ stop) :
    Agree i j t t' :=
  fun k hik hkj => hagree k (by omega) (by omega)

theorem ShowsIn.of_agree (h : ShowsIn start stop t) (hagree : Agree start stop t t') :
    ShowsIn start stop t' := by
  obtain ⟨i, j, m, hi, hj, hm, hslice⟩ := h
  exact ⟨i, j, m, hi, hj, hm, slice_of_agree (hagree.mono hi hj) hm hslice⟩

/-- Two seams in the range, with a character between them. -/
theorem Agree.seams (hagree : Agree start stop t t') {i j : Nat} (hi : start ≤ i) (hj : j ≤ stop)
    (hlt : i < j) (hseamI : t.Seam i) (hseamJ : t.Seam j) : t'.Seam i ∧ t'.Seam j := by
  obtain ⟨m, hslice⟩ := exists_slice_iff.2 ⟨Nat.le_of_lt hlt, hseamI, hseamJ⟩
  have hm : m ≠ [] := by
    rintro rfl
    obtain ⟨-, -, -, -, hsize⟩ := slice_eq_some_iff.1 hslice
    rw [byteSize] at hsize
    omega
  exact (exists_slice_iff.1 ⟨m, slice_of_agree (hagree.mono hi hj) hm hslice⟩).2

/-- **A seam in the range is one of the other text too.**  The byte behind it may be out of range; but
there is a character before it or behind it, and this one's bytes tell. -/
theorem Agree.seam (hagree : Agree start stop t t') (hshow : ShowsIn start stop t) {i : Nat}
    (hi : start ≤ i) (hi' : i ≤ stop) (hseam : t.Seam i) : t'.Seam i := by
  obtain ⟨a, b, m, ha, hb, hm, hslice⟩ := hshow
  obtain ⟨hab, hseamA, hseamB⟩ := exists_slice_iff.1 ⟨m, hslice⟩
  rcases Nat.lt_trichotomy i a with hlt | rfl | hgt
  · exact (hagree.seams hi (Nat.le_trans hab hb) hlt hseam hseamA).1
  · exact (exists_slice_iff.1 ⟨m, slice_of_agree (hagree.mono ha hb) hm hslice⟩).2.1
  · exact (hagree.seams ha hi' hgt hseamA hseam).2

/-- **Texts that agree in a range** have the same slices there, if one of them shows a character. -/
theorem Agree.slice_eq (hagree : Agree start stop t t') (hshow : ShowsIn start stop t) {i j : Nat}
    (hi : start ≤ i) (hj : j ≤ stop) : t.slice i j = t'.slice i j := by
  have hforth : ∀ {t t' : Text}, Agree start stop t t' → ShowsIn start stop t → ∀ m,
      t.slice i j = some m → t'.slice i j = some m := by
    intro t t' hagree hshow m hslice
    by_cases hm : m = []
    · subst hm
      obtain ⟨rfl, hseam⟩ := slice_eq_nil_iff.1 hslice
      exact slice_eq_nil_iff.2 ⟨rfl, hagree.seam hshow hi hj hseam⟩
    · exact slice_of_agree (hagree.mono hi hj) hm hslice
  exact Option.ext fun m => ⟨hforth hagree hshow m, hforth hagree.symm (hshow.of_agree hagree) m⟩

end

end Text

end Outline
