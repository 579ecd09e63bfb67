import Mathlib.Tactic.ByContra
import Outline.Text.Utf8

/-!
# Reading back encoded texts

The reader `Utf8.pieces` against the encoder `Text.utf8`.

* `mapM_eq_some_iff`, `exists_mapM_iff`, `mapM_of_inverse` — a reader on all items of a list;
* `Utf8.pieces_encode` — the bytes of one character are read as that character;
* `Utf8.eq_encode_of_read` — and no other bytes are;
* `Utf8.decode?_utf8`, `Utf8.decode?_eq_some_iff_eq_utf8` — the UTF-8 form of a text stands for that
  text, and nothing else does;
* `Utf8.IsText` — the bytes of texts;
* `Utf8.decodeLossy_of_decode?`, `Utf8.replacement_mem_decodeLossy` — reading with replacements
  changes no text, and marks all other byte sequences.
-/

namespace Outline

/-! ### Readers for lists -/

section

variable {α β : Type} {f : α → Option β}

/-- A list is read as the list of what its items are read as. -/
theorem mapM_eq_some_iff {l : List α} {r : List β} :
    l.mapM f = some r ↔ l.map f = r.map some := by
  induction l generalizing r with
  | nil => cases r <;> simp
  | cons a l ih =>
    have hcons : (a :: l).mapM f = (f a).bind fun b => (l.mapM f).map (b :: ·) := by
      cases h : f a <;> cases h' : l.mapM f <;> simp [h, h']
    rw [hcons, Option.bind_eq_some_iff]
    simp only [Option.map_eq_some_iff, ih]
    cases r with
    | nil => simp
    | cons b r =>
      rw [List.map_cons, List.map_cons, List.cons.injEq]
      constructor
      · rintro ⟨b', hb, r', hr, heq⟩
        cases heq
        exact ⟨hb, hr⟩
      · rintro ⟨hb, hr⟩
        exact ⟨b, hb, r, hr, rfl⟩

theorem exists_mapM_iff {l : List α} :
    (∃ r, l.mapM f = some r) ↔ ∀ a ∈ l, ∃ b, f a = some b := by
  simp only [mapM_eq_some_iff]
  induction l with
  | nil => exact iff_of_true ⟨[], rfl⟩ (List.forall_mem_nil _)
  | cons a l ih =>
    rw [List.forall_mem_cons, ← ih]
    constructor
    · rintro ⟨r, h⟩
      cases r with
      | nil => cases h
      | cons b r =>
        obtain ⟨hb, hr⟩ := List.cons.inj h
        exact ⟨⟨b, hb⟩, r, hr⟩
    · rintro ⟨⟨b, hb⟩, r, hr⟩
      exact ⟨b :: r, congrArg₂ List.cons hb hr⟩

/-- What undoes a reader item by item undoes it on a list. -/
theorem mapM_of_inverse {g : β → Option α} (h : ∀ a b, f a = some b → g b = some a) {l : List α}
    {r : List β} (hr : l.mapM f = some r) : r.mapM g = some l := by
  rw [mapM_eq_some_iff] at hr ⊢
  induction l generalizing r with
  | nil =>
    cases r with
    | nil => rfl
    | cons b r => cases hr
  | cons a l ih =>
    cases r with
    | nil => cases hr
    | cons b r =>
      obtain ⟨hb, hr⟩ := List.cons.inj hr
      exact congrArg₂ List.cons (h a b hb) (ih hr)

end

namespace Utf8

/-! ### One character -/

/-- How a character goes on, by the number that its first byte is. -/
theorem lead?_ofNat {k : Nat} (hk : k < 256) : lead? (UInt8.ofNat k) =
    if k < 0x80 then some ⟨0, 0x80, 0xBF, k⟩
    else if k < 0xC2 then none
    else if k < 0xE0 then some ⟨1, 0x80, 0xBF, k - 0xC0⟩
    else if k = 0xE0 then some ⟨2, 0xA0, 0xBF, 0⟩
    else if k = 0xED then some ⟨2, 0x80, 0x9F, 0xD⟩
    else if k < 0xF0 then some ⟨2, 0x80, 0xBF, k - 0xE0⟩
    else if k = 0xF0 then some ⟨3, 0x90, 0xBF, 0⟩
    else if k < 0xF4 then some ⟨3, 0x80, 0xBF, k - 0xF0⟩
    else if k = 0xF4 then some ⟨3, 0x80, 0x8F, 4⟩
    else none := by
  have hn : (UInt8.ofNat k).toNat = k := UInt8.toNat_ofNat_of_lt' hk
  simp only [lead?, UInt8.lt_iff_toNat_lt, ← UInt8.toNat_inj, hn]
  rfl

/-- A continuation byte within its bounds is read onto the bits. -/
theorem readTails_ofNat {low high : UInt8} {k : Nat} (hk : k < 256) (hlow : low.toNat ≤ k)
    (hhigh : k ≤ high.toNat) (n bits : Nat) (s : Bytes) :
    readTails (n + 1) low high bits (UInt8.ofNat k :: s) =
      readTails n 0x80 0xBF (bits * 64 + (k - 0x80)) s := by
  have hn : (UInt8.ofNat k).toNat = k := UInt8.toNat_ofNat_of_lt' hk
  have hbounds : low ≤ UInt8.ofNat k ∧ UInt8.ofNat k ≤ high := by
    rw [UInt8.le_iff_toNat_le, UInt8.le_iff_toNat_le, hn]
    exact ⟨hlow, hhigh⟩
  rw [readTails, if_pos hbounds, hn]

/-- The same where the bounds are not narrowed. -/
theorem readTails_tail {k : Nat} (hk : k < 64) (n bits : Nat) (s : Bytes) :
    readTails (n + 1) 0x80 0xBF bits (UInt8.ofNat (k + 0x80) :: s) =
      readTails n 0x80 0xBF (bits * 64 + k) s := by
  rw [readTails_ofNat (by omega) (show 128 ≤ _ by omega) (show _ ≤ 191 by omega),
    Nat.add_sub_cancel]

theorem read_two {a b : Nat} (ha : 2 ≤ a) (ha' : a < 32) (hb : b < 64) (s : Bytes) :
    read (UInt8.ofNat (a + 0xC0)) (UInt8.ofNat (b + 0x80) :: s) =
      .char (Char.ofNat (a * 64 + b)) s := by
  have hlead : lead? (UInt8.ofNat (a + 0xC0)) = some ⟨1, 0x80, 0xBF, a⟩ := by
    rw [lead?_ofNat (by omega), if_neg (by omega), if_neg (by omega), if_pos (by omega),
      Nat.add_sub_cancel]
  rw [read, hlead]
  exact readTails_tail hb 0 a s

/-- Three bytes: the first two spell at least 0x20, and no start of a surrogate. -/
theorem read_three {a b c : Nat} (ha : a < 16) (hb : b < 64) (hc : c < 64)
    (hlow : 0x20 ≤ a * 64 + b) (hgap : a * 64 + b < 0x360 ∨ 0x380 ≤ a * 64 + b) (s : Bytes) :
    read (UInt8.ofNat (a + 0xE0)) (UInt8.ofNat (b + 0x80) :: UInt8.ofNat (c + 0x80) :: s) =
      .char (Char.ofNat ((a * 64 + b) * 64 + c)) s := by
  obtain ⟨low, high, hlead, hl, hh⟩ : ∃ low high : UInt8,
      lead? (UInt8.ofNat (a + 0xE0)) = some ⟨2, low, high, a⟩ ∧ low.toNat ≤ b + 0x80 ∧
        b + 0x80 ≤ high.toNat := by
    rw [lead?_ofNat (by omega), if_neg (by omega), if_neg (by omega), if_neg (by omega)]
    split
    · exact ⟨0xA0, 0xBF, by simp; omega, show 160 ≤ _ by omega, show _ ≤ 191 by omega⟩
    split
    · exact ⟨0x80, 0x9F, by simp; omega, show 128 ≤ _ by omega, show _ ≤ 159 by omega⟩
    · rw [if_pos (by omega), Nat.add_sub_cancel]
      exact ⟨0x80, 0xBF, rfl, show 128 ≤ _ by omega, show _ ≤ 191 by omega⟩
  rw [read, hlead]
  show readTails 2 low high a _ = _
  rw [readTails_ofNat (by omega) hl hh, Nat.add_sub_cancel, readTails_tail hc]
  rfl

/-- Four bytes: the first two spell at least 0x10 and less than 0x110. -/
theorem read_four {a b c d : Nat} (ha : a < 5) (hb : b < 64) (hc : c < 64) (hd : d < 64)
    (hlow : 0x10 ≤ a * 64 + b) (hhigh : a * 64 + b < 0x110) (s : Bytes) :
    read (UInt8.ofNat (a + 0xF0)) (UInt8.ofNat (b + 0x80) :: UInt8.ofNat (c + 0x80) ::
      UInt8.ofNat (d + 0x80) :: s) = .char (Char.ofNat (((a * 64 + b) * 64 + c) * 64 + d)) s := by
  obtain ⟨low, high, hlead, hl, hh⟩ : ∃ low high : UInt8,
      lead? (UInt8.ofNat (a + 0xF0)) = some ⟨3, low, high, a⟩ ∧ low.toNat ≤ b + 0x80 ∧
        b + 0x80 ≤ high.toNat := by
    rw [lead?_ofNat (by omega), if_neg (by omega), if_neg (by omega), if_neg (by omega),
      if_neg (by omega), if_neg (by omega), if_neg (by omega)]
    split
    · exact ⟨0x90, 0xBF, by simp; omega, show 144 ≤ _ by omega, show _ ≤ 191 by omega⟩
    split
    · rw [Nat.add_sub_cancel]
      exact ⟨0x80, 0xBF, rfl, show 128 ≤ _ by omega, show _ ≤ 191 by omega⟩
    · rw [if_pos (by omega)]
      exact ⟨0x80, 0x8F, by simp; omega, show 128 ≤ _ by omega, show _ ≤ 143 by omega⟩
  rw [read, hlead]
  show readTails 3 low high a _ = _
  rw [readTails_ofNat (by omega) hl hh, Nat.add_sub_cancel, readTails_tail hc, readTails_tail hd]
  rfl

theorem pieces_of_read {b : UInt8} {r s : Bytes} {c : Char} (h : read b r = .char c s) :
    pieces (b :: r) = some c :: pieces s := by
  rw [pieces]
  split
  · rename_i d rest hd
    rw [h] at hd
    cases hd
    rfl
  · rename_i rest hd
    rw [h] at hd
    cases hd

/-- **The bytes of a character are read as that character**, whatever follows them. -/
theorem pieces_encode (c : Char) (s : Bytes) :
    pieces (String.utf8EncodeChar c ++ s) = some c :: pieces s := by
  have hvalid : c.val.toNat < 0xD800 ∨ 0xDFFF < c.val.toNat ∧ c.val.toNat < 0x110000 := c.valid
  have hchar : ∀ n, n = c.val.toNat → Char.ofNat n = c := by
    rintro n rfl
    exact Char.ofNat_toNat c
  simp only [String.utf8EncodeChar]
  generalize c.val.toNat = v at hvalid hchar
  split
  · apply pieces_of_read
    rw [read, lead?_ofNat (by omega), if_pos (by omega)]
    exact congrArg (Piece.char · s) (hchar v rfl)
  split
  · apply pieces_of_read
    rw [← hchar (v / 64 % 32 * 64 + v % 64) (by omega)]
    exact read_two (by omega) (by omega) (by omega) s
  split
  · apply pieces_of_read
    rw [← hchar ((v / 4096 % 16 * 64 + v / 64 % 64) * 64 + v % 64) (by omega)]
    exact read_three (by omega) (by omega) (by omega) (by omega) (by omega) s
  · apply pieces_of_read
    rw [← hchar (((v / 262144 % 8 * 64 + v / 4096 % 64) * 64 + v / 64 % 64) * 64 + v % 64)
      (by omega)]
    exact read_four (by omega) (by omega) (by omega) (by omega) (by omega) (by omega) s

/-! ### One character back -/

theorem toNat_val_ofNat {v : Nat} (h : v < 0xD800 ∨ 0xDFFF < v ∧ v < 0x110000) :
    (Char.ofNat v).val.toNat = v := by
  have hv : v.isValidChar := h
  rw [Char.ofNat, dif_pos hv]
  rfl

/-- The bytes of the characters that take two. -/
theorem encode_two {a b : Nat} (ha : 2 ≤ a) (ha' : a < 32) (hb : b < 64) :
    String.utf8EncodeChar (Char.ofNat (a * 64 + b)) =
      [UInt8.ofNat (a + 0xC0), UInt8.ofNat (b + 0x80)] := by
  have hfirst : (a * 64 + b) / 64 % 32 = a := by omega
  have hlast : (a * 64 + b) % 64 = b := by omega
  simp only [String.utf8EncodeChar]
  rw [toNat_val_ofNat (by omega), if_neg (by omega), if_pos (by omega), hfirst, hlast]

/-- The bytes of the characters that take three. -/
theorem encode_three {a b c : Nat} (ha : a < 16) (hb : b < 64) (hc : c < 64)
    (hlow : 0x20 ≤ a * 64 + b) (hgap : a * 64 + b < 0x360 ∨ 0x380 ≤ a * 64 + b) :
    String.utf8EncodeChar (Char.ofNat ((a * 64 + b) * 64 + c)) =
      [UInt8.ofNat (a + 0xE0), UInt8.ofNat (b + 0x80), UInt8.ofNat (c + 0x80)] := by
  have hfirst : ((a * 64 + b) * 64 + c) / 4096 % 16 = a := by omega
  have hnext : ((a * 64 + b) * 64 + c) / 64 % 64 = b := by omega
  have hlast : ((a * 64 + b) * 64 + c) % 64 = c := by omega
  simp only [String.utf8EncodeChar]
  rw [toNat_val_ofNat (by omega), if_neg (by omega), if_neg (by omega), if_pos (by omega), hfirst,
    hnext, hlast]

/-- The bytes of the characters that take four. -/
theorem encode_four {a b c d : Nat} (ha : a < 5) (hb : b < 64) (hc : c < 64) (hd : d < 64)
    (hlow : 0x10 ≤ a * 64 + b) (hhigh : a * 64 + b < 0x110) :
    String.utf8EncodeChar (Char.ofNat (((a * 64 + b) * 64 + c) * 64 + d)) =
      [UInt8.ofNat (a + 0xF0), UInt8.ofNat (b + 0x80), UInt8.ofNat (c + 0x80),
        UInt8.ofNat (d + 0x80)] := by
  have hfirst : (((a * 64 + b) * 64 + c) * 64 + d) / 262144 % 8 = a := by omega
  have hnext : (((a * 64 + b) * 64 + c) * 64 + d) / 4096 % 64 = b := by omega
  have hthen : (((a * 64 + b) * 64 + c) * 64 + d) / 64 % 64 = c := by omega
  have hlast : (((a * 64 + b) * 64 + c) * 64 + d) % 64 = d := by omega
  simp only [String.utf8EncodeChar]
  rw [toNat_val_ofNat (by omega), if_neg (by omega), if_neg (by omega), if_neg (by omega), hfirst,
    hnext, hthen, hlast]

/-- A character that goes on does so with a byte within the bounds. -/
theorem exists_tail {n : Nat} {low high : UInt8} {bits : Nat} {s rest : Bytes} {c : Char}
    (hlow : 0x80 ≤ low.toNat) (hhigh : high.toNat ≤ 0xBF)
    (h : readTails (n + 1) low high bits s = .char c rest) :
    ∃ k r, s = UInt8.ofNat (k + 0x80) :: r ∧ k < 64 ∧ low.toNat ≤ k + 0x80 ∧
      k + 0x80 ≤ high.toNat ∧ readTails n 0x80 0xBF (bits * 64 + k) r = .char c rest := by
  cases s with
  | nil => cases h
  | cons b r =>
    rw [readTails] at h
    split at h
    · rename_i hb
      rw [UInt8.le_iff_toNat_le, UInt8.le_iff_toNat_le] at hb
      have hk : b.toNat - 0x80 + 0x80 = b.toNat := by omega
      refine ⟨b.toNat - 0x80, r, ?_, by omega, by omega, by omega, h⟩
      rw [hk, UInt8.ofNat_toNat]
    · cases h

section

variable {low high : UInt8} {a : Nat} {r s : Bytes} {c : Char}

theorem eq_encode_of_two (ha : 2 ≤ a) (ha' : a < 32)
    (h : readTails 1 0x80 0xBF a r = .char c s) :
    UInt8.ofNat (a + 0xC0) :: r = String.utf8EncodeChar c ++ s := by
  obtain ⟨x, r, rfl, hx, -, -, h⟩ := exists_tail (by decide) (by decide) h
  cases h
  rw [encode_two ha ha' hx]
  rfl

theorem eq_encode_of_three (ha : a < 16) (hlow : 0x80 ≤ low.toNat) (hhigh : high.toNat ≤ 0xBF)
    (hbounds : ∀ x, low.toNat ≤ x + 0x80 → x + 0x80 ≤ high.toNat →
      0x20 ≤ a * 64 + x ∧ (a * 64 + x < 0x360 ∨ 0x380 ≤ a * 64 + x))
    (h : readTails 2 low high a r = .char c s) :
    UInt8.ofNat (a + 0xE0) :: r = String.utf8EncodeChar c ++ s := by
  obtain ⟨x, r, rfl, hx, hxl, hxh, h⟩ := exists_tail hlow hhigh h
  obtain ⟨y, r, rfl, hy, -, -, h⟩ := exists_tail (by decide) (by decide) h
  cases h
  obtain ⟨hfirst, hgap⟩ := hbounds x hxl hxh
  rw [encode_three ha hx hy hfirst hgap]
  rfl

theorem eq_encode_of_four (ha : a < 5) (hlow : 0x80 ≤ low.toNat) (hhigh : high.toNat ≤ 0xBF)
    (hbounds : ∀ x, low.toNat ≤ x + 0x80 → x + 0x80 ≤ high.toNat →
      0x10 ≤ a * 64 + x ∧ a * 64 + x < 0x110)
    (h : readTails 3 low high a r = .char c s) :
    UInt8.ofNat (a + 0xF0) :: r = String.utf8EncodeChar c ++ s := by
  obtain ⟨x, r, rfl, hx, hxl, hxh, h⟩ := exists_tail hlow hhigh h
  obtain ⟨y, r, rfl, hy, -, -, h⟩ := exists_tail (by decide) (by decide) h
  obtain ⟨z, r, rfl, hz, -, -, h⟩ := exists_tail (by decide) (by decide) h
  cases h
  obtain ⟨hfirst, hlast⟩ := hbounds x hxl hxh
  rw [encode_four ha hx hy hz hfirst hlast]
  rfl

end

/-- **A character is read from its own bytes only.** -/
theorem eq_encode_of_read {b : UInt8} {r s : Bytes} {c : Char} (h : read b r = .char c s) :
    b :: r = String.utf8EncodeChar c ++ s := by
  obtain ⟨k, hk, rfl⟩ : ∃ k < 256, b = UInt8.ofNat k :=
    ⟨b.toNat, b.toNat_lt, UInt8.ofNat_toNat.symm⟩
  rw [read, lead?_ofNat hk] at h
  split at h
  · rename_i l hl
    split at hl
    · cases hl
      cases h
      simp only [String.utf8EncodeChar]
      rw [toNat_val_ofNat (by omega), if_pos (by omega)]
      rfl
    split at hl
    · cases hl
    split at hl
    · obtain ⟨a, rfl⟩ : ∃ a, k = a + 0xC0 := ⟨k - 0xC0, by omega⟩
      rw [Nat.add_sub_cancel] at hl
      cases hl
      change readTails 1 0x80 0xBF a r = _ at h
      exact eq_encode_of_two (by omega) (by omega) h
    split at hl
    · subst_vars
      cases hl
      exact eq_encode_of_three (by decide) (by decide) (by decide)
        (fun x (hl : 160 ≤ _) (hh : _ ≤ 191) => by omega) h
    split at hl
    · subst_vars
      cases hl
      exact eq_encode_of_three (by decide) (by decide) (by decide)
        (fun x (hl : 128 ≤ _) (hh : _ ≤ 159) => by omega) h
    split at hl
    · obtain ⟨a, rfl⟩ : ∃ a, k = a + 0xE0 := ⟨k - 0xE0, by omega⟩
      rw [Nat.add_sub_cancel] at hl
      cases hl
      change readTails 2 0x80 0xBF a r = _ at h
      exact eq_encode_of_three (by omega) (by decide) (by decide)
        (fun x (hl : 128 ≤ _) (hh : _ ≤ 191) => by omega) h
    split at hl
    · subst_vars
      cases hl
      exact eq_encode_of_four (by decide) (by decide) (by decide)
        (fun x (hl : 144 ≤ _) (hh : _ ≤ 191) => by omega) h
    split at hl
    · obtain ⟨a, rfl⟩ : ∃ a, k = a + 0xF0 := ⟨k - 0xF0, by omega⟩
      rw [Nat.add_sub_cancel] at hl
      cases hl
      change readTails 3 0x80 0xBF a r = _ at h
      exact eq_encode_of_four (by omega) (by decide) (by decide)
        (fun x (hl : 128 ≤ _) (hh : _ ≤ 191) => by omega) h
    split at hl
    · subst_vars
      cases hl
      exact eq_encode_of_four (by decide) (by decide) (by decide)
        (fun x (hl : 128 ≤ _) (hh : _ ≤ 143) => by omega) h
    · cases hl
  · cases h

/-! ### Texts -/

/-- A byte sequence stands for a text if all its pieces are characters. -/
theorem decode?_eq_some_iff {s : Bytes} {t : Text} : decode? s = some t ↔ pieces s = t.map some := by
  rw [decode?, mapM_eq_some_iff, List.map_id]

/-- **The UTF-8 form of a text stands for that text.** -/
theorem decode?_utf8 (t : Text) : decode? t.utf8 = some t := by
  rw [decode?_eq_some_iff]
  induction t with
  | nil => rw [Text.utf8, List.flatMap_nil, pieces]; rfl
  | cons c r ih =>
    rw [Text.utf8, List.flatMap_cons, pieces_encode, List.map_cons, ← ih]
    rfl

/-- **A byte sequence stands for a text if it is the UTF-8 form of that text.** -/
theorem decode?_eq_some_iff_eq_utf8 {s : Bytes} {t : Text} : decode? s = some t ↔ s = t.utf8 := by
  constructor
  · rw [decode?_eq_some_iff]
    intro h
    induction t generalizing s with
    | nil =>
      cases s with
      | nil => rfl
      | cons b s =>
        rw [pieces] at h
        split at h <;> cases h
    | cons c t ih =>
      cases s with
      | nil =>
        rw [pieces] at h
        cases h
      | cons b s =>
        rw [pieces] at h
        split at h
        · rename_i d rest hread
          obtain ⟨hc, hrest⟩ := List.cons.inj h
          cases hc
          rw [eq_encode_of_read hread, ih hrest]
          rfl
        · cases h
  · rintro rfl
    exact decode?_utf8 t

/-- Whether bytes are the UTF-8 form of a text. -/
def IsText (s : Bytes) : Prop := ∃ t : Text, s = t.utf8

theorem isText_iff {s : Bytes} : IsText s ↔ (decode? s).isSome = true := by
  rw [Option.isSome_iff_exists]
  exact exists_congr fun t => decode?_eq_some_iff_eq_utf8.symm

instance (s : Bytes) : Decidable (IsText s) := decidable_of_iff _ isText_iff.symm

theorem IsText.append {s r : Bytes} (hs : IsText s) (hr : IsText r) : IsText (s ++ r) := by
  obtain ⟨t, rfl⟩ := hs
  obtain ⟨u, rfl⟩ := hr
  exact ⟨t ++ u, (Text.utf8_append t u).symm⟩

/-- Reading with replacements changes no text. -/
theorem decodeLossy_of_decode? {s : Bytes} {t : Text} (h : decode? s = some t) :
    decodeLossy s = t := by
  rw [decodeLossy, decode?_eq_some_iff.1 h, List.map_map]
  exact List.map_id t

/-- What is no text is read with a replacement. -/
theorem replacement_mem_decodeLossy {s : Bytes} (h : decode? s = none) :
    '\uFFFD' ∈ decodeLossy s := by
  by_contra hmem
  -- without a replacement, every piece is a character
  have hsome : ∀ p ∈ pieces s, p.isSome = true := by
    intro p hp
    cases p with
    | none => exact absurd (List.mem_map_of_mem hp) hmem
    | some c => rfl
  have hpieces : pieces s = (decodeLossy s).map some := by
    rw [decodeLossy, List.map_map]
    conv_lhs => rw [← List.map_id (pieces s)]
    apply List.map_congr_left
    intro p hp
    obtain ⟨c, rfl⟩ := Option.isSome_iff_exists.1 (hsome p hp)
    rfl
  rw [decode?_eq_some_iff.2 hpieces] at h
  cases h

end Utf8

end Outline
