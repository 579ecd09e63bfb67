import Outline.Text.Blank

/-!
# Texts

A text is a list of characters.  This module holds the operations that every reader and
writer of the library shares:

* `Text.trimStart`, `Text.trimEnd`, `Text.trim` — blanks cut off at the ends;
* `Text.words`, `Text.collapse` — the maximal blank-free parts, and those parts joined by
  single spaces;
* `Text.cut?`, `Text.cutLast?` — the text before and after the first (last) occurrence of a
  marker;
* `Text.truncate` — a text cut after a number of characters, with an ellipsis.

The small laws beside them say that nothing is lost: a cut and its marker give the text back
(`eq_of_cut?_eq_some`, `eq_of_cutLast?_eq_some`).
-/

namespace Outline

/-- A text: its characters, first to last. -/
abbrev Text := List Char

namespace Text

/-! ### Ends -/

def trimStart (t : Text) : Text := t.dropWhile isBlank

/-- Drops the characters at the end that satisfy `p`. -/
def dropEndWhile (p : Char → Bool) (t : Text) : Text := (t.reverse.dropWhile p).reverse

def trimEnd (t : Text) : Text := t.dropEndWhile isBlank

def trim (t : Text) : Text := t.trimStart.trimEnd

/-- Whether a text holds nothing but blanks. -/
def blank (t : Text) : Bool := t.all isBlank

/-! ### Parts -/

/-- The maximal blank-free parts of a text, in order. -/
def words (t : Text) : List Text := (t.splitOnP isBlank).filter (· ≠ [])

/-- The words of a text with one space between neighbours. -/
def collapse (t : Text) : Text := [' '].intercalate t.words

/-- The part after the last `sep`, the whole text if there is none. -/
def afterLast (sep : Char) (t : Text) : Text := (t.reverse.takeWhile (· ≠ sep)).reverse

theorem ne_nil_of_mem_words {t w : Text} (h : w ∈ t.words) : w ≠ [] := by
  simpa using (List.mem_filter.1 h).2

/-! ### Markers -/

/-- What follows `marker` in a text that begins with it. -/
def skip? : (marker : Text) → Text → Option Text
  | [], t => some t
  | _ :: _, [] => none
  | m :: ms, c :: r => if m = c then skip? ms r else none

def startsWith (marker t : Text) : Bool := (skip? marker t).isSome

/-- The texts before and after the first occurrence of `marker`. -/
def cut? (marker : Text) : Text → Option (Text × Text)
  | [] => (skip? marker []).map fun after => ([], after)
  | c :: r =>
    match skip? marker (c :: r) with
    | some after => some ([], after)
    | none => (cut? marker r).map fun (before, after) => (c :: before, after)

/-- The texts before and after the last occurrence of `marker`. -/
def cutLast? (marker : Text) : Text → Option (Text × Text)
  | [] => (skip? marker []).map fun after => ([], after)
  | c :: r =>
    match cutLast? marker r with
    | some (before, after) => some (c :: before, after)
    | none => (skip? marker (c :: r)).map fun after => ([], after)

def occurs (marker t : Text) : Bool := (cut? marker t).isSome

theorem skip?_eq_some_iff {marker t rest : Text} :
    skip? marker t = some rest ↔ t = marker ++ rest := by
  induction marker generalizing t with
  | nil => simp [skip?, eq_comm]
  | cons m ms ih =>
    cases t with
    | nil => simp [skip?]
    | cons c r =>
      by_cases h : m = c
      · simp [skip?, h, ih]
      · simp [skip?, h, Ne.symm h]

/-- A cut takes out one occurrence of the marker and nothing else. -/
theorem eq_of_cut?_eq_some {marker t before after : Text}
    (h : cut? marker t = some (before, after)) : t = before ++ marker ++ after := by
  induction t generalizing before with
  | nil =>
    obtain ⟨a, ha, he⟩ := Option.map_eq_some_iff.1 h
    simp only [Prod.mk.injEq] at he
    obtain ⟨rfl, rfl⟩ := he
    simpa using skip?_eq_some_iff.1 ha
  | cons c r ih =>
    simp only [cut?] at h
    split at h
    · rename_i rest hrest
      simp only [Option.some.injEq, Prod.mk.injEq] at h
      obtain ⟨rfl, rfl⟩ := h
      simpa using skip?_eq_some_iff.1 hrest
    · obtain ⟨⟨b, a⟩, hb, he⟩ := Option.map_eq_some_iff.1 h
      simp only [Prod.mk.injEq] at he
      obtain ⟨rfl, rfl⟩ := he
      simp [ih hb]

/-- The cut at the last occurrence takes out one occurrence and nothing else. -/
theorem eq_of_cutLast?_eq_some {marker t before after : Text}
    (h : cutLast? marker t = some (before, after)) : t = before ++ marker ++ after := by
  induction t generalizing before with
  | nil =>
    obtain ⟨a, ha, he⟩ := Option.map_eq_some_iff.1 h
    simp only [Prod.mk.injEq] at he
    obtain ⟨rfl, rfl⟩ := he
    simpa using skip?_eq_some_iff.1 ha
  | cons c r ih =>
    simp only [cutLast?] at h
    split at h
    · rename_i b a hb
      simp only [Option.some.injEq, Prod.mk.injEq] at h
      obtain ⟨rfl, rfl⟩ := h
      simp [ih hb]
    · obtain ⟨a, ha, he⟩ := Option.map_eq_some_iff.1 h
      simp only [Prod.mk.injEq] at he
      obtain ⟨rfl, rfl⟩ := he
      simpa using skip?_eq_some_iff.1 ha

/-! ### Length -/

/-- The first `n` characters and an ellipsis; a text of at most `n` characters as it is. -/
def truncate (n : Nat) (t : Text) : Text :=
  if t.length ≤ n then t else t.take n ++ "...".toList

/-- A noun in the number that goes with `n`. -/
def plural (n : Nat) (noun : String) : Text :=
  if n = 1 then noun.toList else noun.toList ++ ['s']

/-- The number that decimal digits denote. -/
def natOfDigits (ds : Text) : Nat := ds.foldl (fun n c => 10 * n + (c.toNat - '0'.toNat)) 0

def ofNat (n : Nat) : Text := Nat.toDigits 10 n

/-- A count with its noun in parentheses, as in `(2 attributes)`. -/
def counted (n : Nat) (noun : String) : Text :=
  '(' :: ofNat n ++ ' ' :: plural n noun ++ [')']

/-- A text that is not empty, or nothing. -/
def nonEmpty? (t : Text) : Option Text := if t = [] then none else some t

end Text

end Outline
