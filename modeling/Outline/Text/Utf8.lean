import Outline.Text.Basic

/-!
# Texts as bytes

The UTF-8 form of a text, and the texts that a byte sequence stands for.

* `Text.utf8`, `Text.byteSize` — the bytes of a text and their number;
* `Utf8.read` — what a byte sequence begins with: a character, or bytes that begin none;
* `Utf8.decode?` — the text of a byte sequence, if it is the UTF-8 form of one;
* `Utf8.decodeLossy` — the same for every sequence, with U+FFFD in place of each longest
  piece that begins no character;
* `Text.slice` — the part of a text between two byte offsets, if both lie between
  characters.
-/

namespace Outline

/-- A sequence of bytes. -/
abbrev Bytes := List UInt8

namespace Text

def utf8 (t : Text) : Bytes := t.flatMap String.utf8EncodeChar

/-- The number of bytes of a text's UTF-8 form. -/
def byteSize : Text → Nat
  | [] => 0
  | c :: r => c.utf8Size + byteSize r

@[simp] theorem byteSize_append (s t : Text) : byteSize (s ++ t) = byteSize s + byteSize t := by
  induction s with
  | nil => simp [byteSize]
  | cons c r ih => simp only [List.cons_append, byteSize, ih]; omega

@[simp] theorem utf8_append (s t : Text) : utf8 (s ++ t) = utf8 s ++ utf8 t := by
  simp [utf8]

theorem length_utf8 (t : Text) : (utf8 t).length = byteSize t := by
  induction t with
  | nil => rfl
  | cons c r ih => simp [utf8, byteSize] at ih ⊢; omega

end Text

namespace Utf8

/-! ### Reading one character -/

/-- What a byte sequence begins with. -/
inductive Piece where
  /-- A whole character. -/
  | char (c : Char) (rest : Bytes)
  /-- Bytes that begin no character. -/
  | broken (rest : Bytes)

/-- What follows the piece. -/
def Piece.rest : Piece → Bytes
  | .char _ rest => rest
  | .broken rest => rest

/-- How a character that begins with a given byte goes on: the number of bytes to come, the
bounds for the first of them, and the bits that the byte itself brings. -/
structure Lead where
  tails : Nat
  low : UInt8
  high : UInt8
  bits : Nat

/-- The bytes that can begin a character.  The narrowed bounds after 0xE0, 0xED, 0xF0 and
0xF4 shut out overlong forms, surrogates and numbers above 0x10FFFF. -/
def lead? (b : UInt8) : Option Lead :=
  if b < 0x80 then some ⟨0, 0x80, 0xBF, b.toNat⟩
  else if b < 0xC2 then none
  else if b < 0xE0 then some ⟨1, 0x80, 0xBF, b.toNat - 0xC0⟩
  else if b = 0xE0 then some ⟨2, 0xA0, 0xBF, 0⟩
  else if b = 0xED then some ⟨2, 0x80, 0x9F, 0xD⟩
  else if b < 0xF0 then some ⟨2, 0x80, 0xBF, b.toNat - 0xE0⟩
  else if b = 0xF0 then some ⟨3, 0x90, 0xBF, 0⟩
  else if b < 0xF4 then some ⟨3, 0x80, 0xBF, b.toNat - 0xF0⟩
  else if b = 0xF4 then some ⟨3, 0x80, 0x8F, 4⟩
  else none

/-- Reads `n` continuation bytes, the first of them between `low` and `high`, onto the bits
read so far. -/
def readTails : (n : Nat) → (low high : UInt8) → (bits : Nat) → Bytes → Piece
  | 0, _, _, bits, rest => .char (Char.ofNat bits) rest
  | _ + 1, _, _, _, [] => .broken []
  | n + 1, low, high, bits, b :: rest =>
    if low ≤ b ∧ b ≤ high then readTails n 0x80 0xBF (bits * 64 + (b.toNat - 0x80)) rest
    else .broken (b :: rest)

/-- Reads the piece that begins with `b`. -/
def read (b : UInt8) (rest : Bytes) : Piece :=
  match lead? b with
  | some l => readTails l.tails l.low l.high l.bits rest
  | none => .broken rest

theorem length_rest_readTails (n : Nat) (low high : UInt8) (bits : Nat) (s : Bytes) :
    (readTails n low high bits s).rest.length ≤ s.length := by
  induction n generalizing low high bits s with
  | zero => simp [readTails, Piece.rest]
  | succ n ih =>
    cases s with
    | nil => simp [readTails, Piece.rest]
    | cons b rest =>
      simp only [readTails]
      split
      · exact Nat.le_trans (ih ..) (by simp)
      · simp [Piece.rest]

theorem length_rest_read (b : UInt8) (s : Bytes) : (read b s).rest.length ≤ s.length := by
  unfold read
  split
  · exact length_rest_readTails ..
  · simp [Piece.rest]

/-! ### Reading a text -/

/-- The pieces of a byte sequence: its characters, and nothing for each broken piece. -/
def pieces : Bytes → List (Option Char)
  | [] => []
  | b :: s =>
    match _h : read b s with
    | .char c rest => some c :: pieces rest
    | .broken rest => none :: pieces rest
termination_by s => s.length
decreasing_by
  all_goals
    have := length_rest_read b s
    rw [_h] at this
    simp only [Piece.rest] at this
    simp only [List.length_cons]
    omega

/-- The text whose UTF-8 form the bytes are. -/
def decode? (s : Bytes) : Option Text := (pieces s).mapM id

/-- The text of the bytes, with the replacement character for each broken piece. -/
def decodeLossy (s : Bytes) : Text := (pieces s).map (·.getD '\uFFFD')

end Utf8

namespace Text

/-! ### Parts by byte offset -/

/-- The text after its first `n` bytes, if a character begins or the text ends there. -/
def dropBytes? (n : Nat) : Text → Option Text
  | [] => if n = 0 then some [] else none
  | c :: r =>
    if n = 0 then some (c :: r)
    else if c.utf8Size ≤ n then dropBytes? (n - c.utf8Size) r
    else none

/-- The first `n` bytes of a text, if they are whole characters. -/
def takeBytes? (n : Nat) : Text → Option Text
  | [] => if n = 0 then some [] else none
  | c :: r =>
    if n = 0 then some []
    else if c.utf8Size ≤ n then (takeBytes? (n - c.utf8Size) r).map (c :: ·)
    else none

/-- The text between two byte offsets; nothing if they are in the wrong order, past the end,
or inside a character. -/
def slice (t : Text) (start stop : Nat) : Option Text :=
  if start ≤ stop then (t.dropBytes? start).bind (takeBytes? (stop - start)) else none

theorem dropBytes?_byteSize (s t : Text) : dropBytes? (byteSize s) (s ++ t) = some t := by
  induction s with
  | nil => cases t <;> simp [byteSize, dropBytes?]
  | cons c r ih =>
    have hc : c.utf8Size ≠ 0 := Nat.ne_of_gt c.utf8Size_pos
    simp [byteSize, dropBytes?, hc, ih]

theorem takeBytes?_byteSize (s t : Text) : takeBytes? (byteSize s) (s ++ t) = some s := by
  induction s with
  | nil => cases t <;> simp [byteSize, takeBytes?]
  | cons c r ih =>
    have hc : c.utf8Size ≠ 0 := Nat.ne_of_gt c.utf8Size_pos
    simp [byteSize, takeBytes?, hc, ih]

/-- A slice along the seams of a text gives back its middle part. -/
theorem slice_append (s m t : Text) :
    slice (s ++ m ++ t) (byteSize s) (byteSize s + byteSize m) = some m := by
  simp [slice, dropBytes?_byteSize, takeBytes?_byteSize, List.append_assoc]

end Text

end Outline
