import Outline.Json.Printer
import Outline.Proofs.Encoding
import Outline.Proofs.JsonGrammar

/-!
# Reading back written JSON

The writer `Json.pretty` against the grammar, and so against the reader `Json.parse?`.

* `Json.Plain` — the values that a program writes: natural numbers, and strings that are texts;
* `Json.isNumber_ofNat`, `Json.natural?_ofNat` — a written number is a literal, and a word is the number
  that its digits denote;
* `Json.bodySpelled_escaped` — a written string denotes its text;
* `Json.spelled_write` — a plain value is written by the grammar, at every depth;
* `Json.parse?_pretty_append` — the text of a plain value stands for that value.
-/

namespace Outline.Json

/-! ### Numbers -/

theorem isDigit_of_mem_ofNat {n : Nat} {c : Char} (h : c ∈ Text.ofNat n) : c.isDigit = true :=
  Nat.isDigit_of_mem_toDigits (by decide) (by decide) h

/-- A written number has a first digit, which is zero for no number but zero. -/
theorem ofNat_eq_cons (n : Nat) :
    ∃ c ds, Text.ofNat n = c :: ds ∧ (0 < n → c ≠ '0') := by
  induction n using Nat.strongRecOn with
  | _ n ih =>
    by_cases hlt : n < 10
    · have hdigit : ∀ m < 10, 0 < m → m.digitChar ≠ '0' := by decide
      exact ⟨n.digitChar, [], Nat.toDigits_of_lt_base hlt, hdigit n hlt⟩
    · obtain ⟨c, ds, hds, hzero⟩ := ih (n / 10) (by omega)
      have hsplit := Nat.toDigits_append_toDigits (b := 10) (n := n / 10) (d := n % 10)
        (by omega) (by omega) (by omega)
      rw [Nat.div_add_mod] at hsplit
      refine ⟨c, ds ++ Text.ofNat (n % 10), ?_, fun _ => hzero (by omega)⟩
      rw [← List.cons_append, ← hds]
      exact hsplit.symm

theorem isNumber_ofNat (n : Nat) : IsNumber (Text.ofNat n) := by
  have hwhole : IsWhole (Text.ofNat n) := by
    obtain rfl | hn := Nat.eq_zero_or_pos n
    · exact IsWhole.zero
    · refine IsWhole.digits ⟨Nat.toDigits_ne_nil, fun c hc => isDigit_of_mem_ofNat hc⟩ ?_
      obtain ⟨c, ds, hds, hzero⟩ := ofNat_eq_cons n
      rw [hds]
      exact fun h => hzero hn (Option.some.inj h)
  have hnumber := IsNumber.unsigned hwhole .absent .absent
  rwa [List.nil_append, List.append_nil] at hnumber

theorem natOfDigits_ofNat (n : Nat) : Text.natOfDigits (Text.ofNat n) = n := by
  have h := Nat.ofDigitChars_ten_toDigits (n := n)
  rw [Nat.ofDigitChars_eq_foldl] at h
  exact h

/-- **A word is the number that its digits denote.** -/
theorem natural?_ofNat (n : UInt64) : (ofNat n.toNat).natural? = some n := by
  have hdigits : (Text.ofNat n.toNat).all Char.isDigit = true := by
    rw [List.all_eq_true]
    exact fun c hc => isDigit_of_mem_ofNat hc
  have hlt : n.toNat < UInt64.size := n.toNat_lt_size
  simp [ofNat, natural?, natOfDigits_ofNat, hdigits, hlt]

/-! ### Strings -/

theorem unit?_hexByte {n : Nat} (hn : n < 0x20) :
    ∃ a b, hexByte n = [a, b] ∧ unit? '0' '0' a b = some n := by
  refine ⟨_, _, rfl, ?_⟩
  revert n
  decide

/-- A unit that is no half of a pair is a character of its own. -/
theorem denoted?_unit {n : Nat} (hn : n < 0x20) (ps : List StringPart) :
    denoted? (.unit n :: ps) = (denoted? ps).map (Char.ofNat n :: ·) := by
  have hhigh : isHigh n = false := by simp [isHigh]; omega
  have hlow : isLow n = false := by simp [isLow]; omega
  cases ps with
  | nil => simp [denoted?, hhigh, hlow]
  | cons p ps =>
    cases p with
    | char c => simp [denoted?, hhigh, hlow]
    | unit l => simp [denoted?, hhigh, hlow]

/-- The written form of a character is one part, which denotes it. -/
theorem partSpelled_escapeChar (c : Char) : ∃ p : StringPart, PartSpelled p (escapeChar c) ∧
    ∀ ps, denoted? (p :: ps) = (denoted? ps).map (c :: ·) := by
  have hletter : ∀ {e d : Char}, unescape? e = some d → ∃ p : StringPart, PartSpelled p ['\\', e] ∧
      ∀ ps, denoted? (p :: ps) = (denoted? ps).map (d :: ·) :=
    fun he => ⟨.char _, .escape he, fun ps => rfl⟩
  unfold escapeChar
  split
  · subst_vars; exact hletter (by decide)
  split
  · subst_vars; exact hletter (by decide)
  split
  · subst_vars; exact hletter (by decide)
  split
  · subst_vars; exact hletter (by decide)
  split
  · subst_vars; exact hletter (by decide)
  split
  · subst_vars; exact hletter (by decide)
  split
  · subst_vars; exact hletter (by decide)
  split
  · rename_i hc
    obtain ⟨a, b, hhex, hunit⟩ := unit?_hexByte hc
    refine ⟨.unit c.toNat, ?_, fun ps => ?_⟩
    · rw [hhex]
      exact .unit hunit
    · rw [denoted?_unit hc, Char.ofNat_toNat]
  · rename_i hquote hslash _ _ _ _ _ hc
    exact ⟨.char c, .itself (by omega) hquote hslash, fun ps => rfl⟩

/-- **A written string denotes its text.** -/
theorem bodySpelled_escaped (t : Text) :
    ∃ ps, BodySpelled ps (t.flatMap escapeChar) ∧ denoted? ps = some t := by
  induction t with
  | nil => exact ⟨[], .nil, rfl⟩
  | cons c t ih =>
    obtain ⟨ps, hbody, hps⟩ := ih
    obtain ⟨p, hpart, hp⟩ := partSpelled_escapeChar c
    refine ⟨p :: ps, .cons hpart hbody, ?_⟩
    rw [hp, hps]
    rfl

theorem spelled_writeString (t : Text) : Spelled (.string t) (writeString t) := by
  obtain ⟨ps, hbody, hps⟩ := bodySpelled_escaped t
  have hvalue : ofParts ps = .string t := by rw [ofParts, hps]
  rw [← hvalue]
  exact .string hbody

/-! ### Values -/

/-- A value whose numbers are natural, and whose strings all denote texts. -/
inductive Plain : Json → Prop
  | null : Plain .null
  | bool (b : Bool) : Plain (.bool b)
  | ofNat (n : Nat) : Plain (.ofNat n)
  | string (t : Text) : Plain (.string t)
  | array {vs : List Json} : (∀ v ∈ vs, Plain v) → Plain (.array vs)
  | object {ms : List (Text × Json)} : (∀ m ∈ ms, Plain m.2) → Plain (.object ms)

/-- Where all names denote texts, the members make an object. -/
theorem ofMembers_some (ms : List (Text × Json)) :
    ofMembers (ms.map fun m => (some m.1, m.2)) = .object ms := by
  rw [ofMembers, mapM_eq_some_iff.2]
  rw [List.map_map]
  rfl

theorem blank_newline (d : Nat) : ∀ c ∈ newline d, isSpace c = true := by
  intro c hc
  cases List.mem_cons.1 hc with
  | inl hc =>
    rw [hc]
    rfl
  | inr hc =>
    rw [(List.mem_replicate.1 hc).2]
    rfl

/-- An item on a line of its own; behind the last one the line of the bracket begins. -/
def lineGaps (d : Nat) {after : Text} (h : ∀ c ∈ after, isSpace c = true) : Gaps :=
  ⟨newline d, after, blank_newline d, h⟩

theorem blank_nil : ∀ c ∈ ([] : Text), isSpace c = true := by simp

theorem exists_items {d : Nat} {after : Text} (hafter : ∀ c ∈ after, isSpace c = true) {v : Json}
    {vs : List Json} (h : ∀ w ∈ v :: vs, Spelled w (write d w)) : ∃ items : List Item,
      items ≠ [] ∧ (∀ i ∈ items, Spelled i.value i.written) ∧ items.map Item.value = v :: vs ∧
        commas (items.map Item.text) = newline d ++ (write d v ++ (writeItems d vs ++ after)) := by
  induction vs generalizing v with
  | nil =>
    refine ⟨[⟨v, write d v, lineGaps d hafter⟩], by simp, ?_, rfl, ?_⟩
    · exact List.forall_mem_singleton.2 (h v List.mem_cons_self)
    · exact List.intercalate_singleton
  | cons w vs ih =>
    obtain ⟨hv, hvs⟩ := List.forall_mem_cons.1 h
    obtain ⟨items, hne, hitems, hvalues, htext⟩ := ih hvs
    refine ⟨⟨v, write d v, lineGaps d blank_nil⟩ :: items, List.cons_ne_nil _ _,
      List.forall_mem_cons.2 ⟨hv, hitems⟩, by rw [List.map_cons, hvalues], ?_⟩
    rw [List.map_cons, commas_cons _ (by simpa using hne), htext]
    simp [Item.text, Gaps.around, lineGaps, writeItems]

/-- A member on a line of its own, with a space before its value. -/
theorem exists_member {d : Nat} {after : Text} (hafter : ∀ c ∈ after, isSpace c = true) (k : Text)
    (v : Json) : ∃ m : Member, m.content = (some k, v) ∧ m.written = write d v ∧
      m.text = newline d ++ (writeString k ++ (':' :: ' ' :: (write d v ++ after))) := by
  obtain ⟨ps, hbody, hps⟩ := bodySpelled_escaped k
  have hspace : ∀ c ∈ [' '], isSpace c = true := List.forall_mem_singleton.2 rfl
  refine ⟨⟨⟨v, write d v, ⟨[' '], after, hspace, hafter⟩⟩, ps, _, hbody, lineGaps d blank_nil⟩, ?_, rfl, ?_⟩
  · rw [Member.content, hps]
  · simp [Member.text, Item.text, Gaps.around, lineGaps, quoted, writeString]

theorem exists_members {d : Nat} {after : Text} (hafter : ∀ c ∈ after, isSpace c = true) {k : Text}
    {v : Json} {ms : List (Text × Json)} (h : ∀ m ∈ (k, v) :: ms, Spelled m.2 (write d m.2)) :
    ∃ members : List Member, members ≠ [] ∧ (∀ m ∈ members, Spelled m.value m.written) ∧
      members.map Member.content = ((k, v) :: ms).map (fun m => (some m.1, m.2)) ∧
      commas (members.map Member.text) =
        newline d ++ (writeString k ++ (':' :: ' ' :: (write d v ++ (writeMembers d ms ++ after)))) := by
  induction ms generalizing k v with
  | nil =>
    obtain ⟨m, hcontent, hwritten, htext⟩ := exists_member (d := d) hafter k v
    have hvalue : m.value = v := congrArg Prod.snd hcontent
    refine ⟨[m], by simp, List.forall_mem_singleton.2 ?_, by rw [List.map_singleton, hcontent]; rfl, ?_⟩
    · rw [hvalue, hwritten]
      exact h (k, v) List.mem_cons_self
    · exact List.intercalate_singleton.trans htext
  | cons l ms ih =>
    obtain ⟨hv, hms⟩ := List.forall_mem_cons.1 h
    obtain ⟨members, hne, hmembers, hcontents, hrest⟩ := ih hms
    obtain ⟨m, hcontent, hwritten, htext⟩ := exists_member (d := d) blank_nil k v
    have hvalue : m.value = v := congrArg Prod.snd hcontent
    refine ⟨m :: members, List.cons_ne_nil _ _, List.forall_mem_cons.2 ⟨?_, hmembers⟩,
      by rw [List.map_cons, List.map_cons, hcontent, hcontents], ?_⟩
    · rw [hvalue, hwritten]
      exact hv
    · rw [List.map_cons, commas_cons _ (by simpa using hne), hrest, htext]
      simp [writeMembers]

/-- **A plain value is written by the grammar**, at every depth. -/
theorem spelled_write {v : Json} (h : Plain v) (d : Nat) : Spelled v (write d v) := by
  induction h generalizing d with
  | null => exact .null
  | bool b => exact .bool b
  | ofNat n => exact .number (isNumber_ofNat n)
  | string t => exact spelled_writeString t
  | @array vs _ ih =>
    cases vs with
    | nil => exact .emptyArray blank_nil
    | cons v vs =>
      obtain ⟨items, hne, hitems, hvalues, htext⟩ :=
        exists_items (blank_newline d) fun w hw => ih w hw (d + 1)
      have hwritten := Spelled.array hne hitems
      have hsplit : write d (.array (v :: vs)) = '[' :: (newline (d + 1) ++
          (write (d + 1) v ++ (writeItems (d + 1) vs ++ newline d)) ++ [']']) := by
        simp [write]
      rwa [hvalues, htext, ← hsplit] at hwritten
  | @object ms _ ih =>
    cases ms with
    | nil => exact .emptyObject blank_nil
    | cons m ms =>
      obtain ⟨k, v⟩ := m
      obtain ⟨members, hne, hmembers, hcontents, htext⟩ :=
        exists_members (blank_newline d) fun m hm => ih m hm (d + 1)
      have hwritten := Spelled.object hne hmembers
      have hsplit : write d (.object ((k, v) :: ms)) = '{' :: (newline (d + 1) ++ (writeString k ++
          (':' :: ' ' :: (write (d + 1) v ++ (writeMembers (d + 1) ms ++ newline d)))) ++ ['}']) := by
        simp [write]
      rwa [hcontents, ofMembers_some, htext, ← hsplit] at hwritten

/-- **The text of a plain value stands for that value**, with blanks behind it or without. -/
theorem parse?_pretty_append {v : Json} (h : Plain v) {r : Text} (hr : ∀ c ∈ r, isSpace c = true) :
    parse? (v.pretty ++ r) = some v :=
  parse?_of_spelled (spelled_write h 0) ⟨[], r, blank_nil, hr⟩

theorem parse?_pretty {v : Json} (h : Plain v) : parse? v.pretty = some v := by
  have hread := parse?_pretty_append h blank_nil
  rwa [List.append_nil] at hread

end Outline.Json
