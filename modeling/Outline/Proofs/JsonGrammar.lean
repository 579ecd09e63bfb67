import Mathlib.Data.Bool.AllAny
import Mathlib.Data.List.DropRight
import Outline.Json.Parser

/-!
# The grammar of JSON

What it is to write a JSON value, without saying how it is read.

* `Json.IsNumber` — the number literals;
* `Json.BodySpelled` — how the parts of a string are written, each as itself or by an escape;
* `Json.Gaps` — the blanks around a token;
* `Json.Spelled` — the ways to write a value: any blanks between tokens, any members in any order, any
  nesting;
* `Json.parse?_of_spelled` — the reader finds the value of every text that is written so.

The induction is over the way a value is written.  For the items of an array and the members of an object
it is over their list, as the reader takes them one by one and each has its own share of the fuel.
-/

namespace Outline.Json

/-! ### Numbers -/

/-- One or more decimal digits. -/
structure IsDigits (ds : Text) : Prop where
  ne_nil : ds ≠ []
  digit : ∀ c ∈ ds, c.isDigit = true

/-- The whole part of a number. -/
inductive IsWhole : Text → Prop
  | zero : IsWhole ['0']
  | digits {ds : Text} : IsDigits ds → ds.head? ≠ some '0' → IsWhole ds

inductive IsFraction : Text → Prop
  | absent : IsFraction []
  | point {ds : Text} : IsDigits ds → IsFraction ('.' :: ds)

inductive IsExponent : Text → Prop
  | absent : IsExponent []
  | power {e : Char} {sign ds : Text} : e = 'e' ∨ e = 'E' → sign ∈ [[], ['+'], ['-']] →
      IsDigits ds → IsExponent (e :: (sign ++ ds))

/-- A number literal. -/
inductive IsNumber : Text → Prop
  | unsigned {w f e : Text} : IsWhole w → IsFraction f → IsExponent e → IsNumber (w ++ (f ++ e))
  | negative {w f e : Text} : IsWhole w → IsFraction f → IsExponent e →
      IsNumber ('-' :: (w ++ (f ++ e)))

theorem ne_of_isDigit {c d : Char} (hc : c.isDigit = true) (hd : d.isDigit = false) : c ≠ d := by
  intro h
  rw [h, hd] at hc
  cases hc

/-- A text with which a number does not go on. -/
def Ends (r : Text) : Prop := ∀ c ∈ r.head?, c.isDigit = false ∧ c ∉ ['.', 'e', 'E']

theorem ends_nil : Ends [] := by
  intro c hc
  cases hc

theorem ends_cons {c : Char} (h : c.isDigit = false ∧ c ∉ ['.', 'e', 'E']) (r : Text) :
    Ends (c :: r) := by
  intro d hd
  cases hd
  exact h

theorem digits?_append {ds r : Text} (hds : IsDigits ds) (hr : ∀ c ∈ r.head?, c.isDigit = false) :
    digits? (ds ++ r) = some (ds, r) := by
  have hstop : r.takeWhile Char.isDigit = [] ∧ r.dropWhile Char.isDigit = r := by
    cases r with
    | nil => exact ⟨rfl, rfl⟩
    | cons c r => simp [hr c rfl]
  rw [digits?, List.takeWhile_append_of_pos hds.digit, List.dropWhile_append_of_pos hds.digit,
    hstop.1, hstop.2, List.append_nil, if_neg hds.ne_nil]

theorem whole?_append {w r : Text} (hw : IsWhole w) (hr : ∀ c ∈ r.head?, c.isDigit = false) :
    whole? (w ++ r) = some (w, r) := by
  cases hw with
  | zero => rfl
  | digits hds hzero =>
    rw [whole?]
    · exact digits?_append hds hr
    · intro s hs
      obtain ⟨c, ds, rfl⟩ := List.exists_cons_of_ne_nil hds.ne_nil
      exact hzero (congrArg some (List.cons.inj hs).1)

theorem exponent?_append {e r : Text} (he : IsExponent e) (hr : Ends r) :
    exponent? (e ++ r) = some (e, r) := by
  cases he with
  | absent =>
    cases r with
    | nil => rfl
    | cons c r =>
      have hc := (hr c rfl).2
      rw [List.nil_append, exponent?, if_neg]
      intro h
      cases h with
      | inl h => simp [h] at hc
      | inr h => simp [h] at hc
  | @power e sign ds he hsign hds =>
    have hdigits := digits?_append hds fun c hc => (hr c hc).1
    obtain ⟨d, t, hd⟩ := List.exists_cons_of_ne_nil hds.ne_nil
    have hdigit : d.isDigit = true := hds.digit d (by simp [hd])
    have hsigned : exponentSign (sign ++ (ds ++ r)) = (sign, ds ++ r) := by
      simp only [List.mem_cons, List.not_mem_nil, or_false] at hsign
      obtain rfl | rfl | rfl := hsign
      · rw [List.nil_append, hd]
        have hplus : d ≠ '+' := ne_of_isDigit hdigit rfl
        have hminus : d ≠ '-' := ne_of_isDigit hdigit rfl
        simp [exponentSign, hplus, hminus]
      · rfl
      · rfl
    rw [List.cons_append, List.append_assoc, exponent?, if_pos he, hsigned]
    simp [hdigits]

/-- An exponent, or what stands in its place, is neither digit nor point. -/
theorem head?_exponent {e r : Text} (he : IsExponent e) (hr : Ends r) :
    ∀ c ∈ (e ++ r).head?, c.isDigit = false ∧ c ≠ '.' := by
  intro c hc
  cases he with
  | absent =>
    obtain ⟨hdigit, hmem⟩ := hr c hc
    exact ⟨hdigit, fun h => hmem (by simp [h])⟩
  | power he _ _ =>
    cases hc
    cases he with
    | inl he => subst he; exact ⟨rfl, by decide⟩
    | inr he => subst he; exact ⟨rfl, by decide⟩

theorem fraction?_append {f r : Text} (hf : IsFraction f)
    (hr : ∀ c ∈ r.head?, c.isDigit = false ∧ c ≠ '.') : fraction? (f ++ r) = some (f, r) := by
  cases hf with
  | absent =>
    rw [List.nil_append, fraction?]
    intro s hs
    exact (hr '.' (by rw [hs]; rfl)).2 rfl
  | point hds =>
    rw [List.cons_append, fraction?, digits?_append hds fun c hc => (hr c hc).1]
    rfl

theorem head?_fraction {f r : Text} (hf : IsFraction f)
    (hr : ∀ c ∈ r.head?, c.isDigit = false ∧ c ≠ '.') : ∀ c ∈ (f ++ r).head?, c.isDigit = false := by
  intro c hc
  cases hf with
  | absent => exact (hr c hc).1
  | point _ =>
    cases hc
    rfl

theorem unsigned?_append {w f e r : Text} (hw : IsWhole w) (hf : IsFraction f) (he : IsExponent e)
    (hr : Ends r) : unsigned? (w ++ (f ++ e) ++ r) = some (w ++ (f ++ e), r) := by
  have hexponent := head?_exponent he hr
  have hsplit : w ++ (f ++ e) ++ r = w ++ (f ++ (e ++ r)) := by simp
  rw [hsplit, unsigned?, whole?_append hw (head?_fraction hf hexponent)]
  simp [fraction?_append hf hexponent, exponent?_append he hr]

/-- A whole part begins with a digit. -/
theorem IsWhole.exists_cons {w : Text} (hw : IsWhole w) : ∃ c t, w = c :: t ∧ c.isDigit = true := by
  cases hw with
  | zero => exact ⟨'0', [], rfl, rfl⟩
  | digits hds _ =>
    obtain ⟨c, t, rfl⟩ := List.exists_cons_of_ne_nil hds.ne_nil
    exact ⟨c, t, rfl, hds.digit c List.mem_cons_self⟩

/-- A number literal begins with a digit or a minus sign. -/
theorem IsNumber.exists_cons {l : Text} (hl : IsNumber l) :
    ∃ c t, l = c :: t ∧ (c.isDigit = true ∨ c = '-') := by
  cases hl with
  | unsigned hw _ _ =>
    obtain ⟨c, t, rfl, hc⟩ := hw.exists_cons
    exact ⟨c, _, rfl, Or.inl hc⟩
  | negative _ _ _ => exact ⟨'-', _, rfl, Or.inr rfl⟩

/-- **A number literal is read up to its end.** -/
theorem number?_append {l r : Text} (hl : IsNumber l) (hr : Ends r) :
    number? (l ++ r) = some (l, r) := by
  cases hl with
  | unsigned hw hf he =>
    rw [number?]
    · exact unsigned?_append hw hf he hr
    · intro s hs
      obtain ⟨c, t, rfl, hc⟩ := hw.exists_cons
      exact ne_of_isDigit hc rfl (List.cons.inj hs).1
  | negative hw hf he =>
    rw [List.cons_append, number?, unsigned?_append hw hf he hr]
    rfl

/-! ### Strings -/

/-- A part of a string as it is written. -/
inductive PartSpelled : StringPart → Text → Prop
  | itself {c : Char} : 0x20 ≤ c.toNat → c ≠ '"' → c ≠ '\\' → PartSpelled (.char c) [c]
  | escape {e c : Char} : unescape? e = some c → PartSpelled (.char c) ['\\', e]
  | unit {a b c d : Char} {n : Nat} : unit? a b c d = some n →
      PartSpelled (.unit n) ['\\', 'u', a, b, c, d]

/-- What stands between the quotes of a string. -/
inductive BodySpelled : List StringPart → Text → Prop
  | nil : BodySpelled [] []
  | cons {p : StringPart} {ps : List StringPart} {s t : Text} : PartSpelled p s → BodySpelled ps t →
      BodySpelled (p :: ps) (s ++ t)

/-- A text of plain characters is written as it is. -/
theorem BodySpelled.ofChars {t : Text} (h : ∀ c ∈ t, 0x20 ≤ c.toNat ∧ c ≠ '"' ∧ c ≠ '\\') :
    BodySpelled (t.map .char) t := by
  induction t with
  | nil => exact .nil
  | cons c t ih =>
    obtain ⟨⟨hc, hquote, hslash⟩, ht⟩ := List.forall_mem_cons.1 h
    exact .cons (.itself hc hquote hslash) (ih ht)

/-- A body in its quotes. -/
def quoted (body : Text) : Text := '"' :: (body ++ ['"'])

theorem stringBody?_part {p : StringPart} {s : Text} (h : PartSpelled p s) (r : Text) :
    stringBody? (s ++ r) = (stringBody? r).map fun (ps, r) => (p :: ps, r) := by
  cases h with
  | itself hc hquote hslash =>
    rw [List.singleton_append, stringBody?, if_neg (by omega)]
    · exact hquote
    · intro _ _ _ _ _ h _
      exact hslash h
    · intro _ _ h _
      exact hslash h
  | @escape e c he =>
    have hu : e ≠ 'u' := by
      intro hu
      rw [hu] at he
      cases he
    rw [List.cons_append, List.singleton_append, stringBody?, he]
    · rfl
    · intro _ _ _ _ _ h _
      exact hu h
  | unit hn =>
    show stringBody? ('\\' :: 'u' :: _ :: _ :: _ :: _ :: r) = _
    rw [stringBody?, hn]
    rfl

theorem stringBody?_body {ps : List StringPart} {t : Text} (h : BodySpelled ps t) (r : Text) :
    stringBody? (t ++ '"' :: r) = some (ps, r) := by
  induction h with
  | nil => rfl
  | cons hp _ ih =>
    rw [List.append_assoc, stringBody?_part hp, ih]
    rfl

theorem key?_quoted {ps : List StringPart} {body : Text} (h : BodySpelled ps body) (r : Text) :
    key? (quoted body ++ r) = some (denoted? ps, r) := by
  have hsplit : quoted body ++ r = '"' :: (body ++ '"' :: r) := by simp [quoted]
  rw [hsplit, key?, stringBody?_body h]
  rfl

theorem scalar?_quoted {ps : List StringPart} {body : Text} (h : BodySpelled ps body) (r : Text) :
    scalar? (quoted body ++ r) = some (ofParts ps, r) := by
  have hsplit : quoted body ++ r = '"' :: (body ++ '"' :: r) := by simp [quoted]
  rw [hsplit, scalar?, stringBody?_body h]
  rfl

theorem scalar?_number {l r : Text} (hl : IsNumber l) (hr : Ends r) :
    scalar? (l ++ r) = some (.number l, r) := by
  obtain ⟨c, t, hc, hfirst⟩ := hl.exists_cons
  -- neither a digit nor a minus sign leads to another kind of scalar
  have hhead : ∀ d s, l ++ r = d :: s → d ∉ ['"', 'n', 't', 'f'] := by
    intro d s h
    rw [hc] at h
    rw [← (List.cons.inj h).1]
    cases hfirst with
    | inl hdigit =>
      intro hmem
      have hnone : ∀ d ∈ ['"', 'n', 't', 'f'], d.isDigit = false :=
        List.all_iff_forall_prop.1 rfl
      exact ne_of_isDigit hdigit (hnone c hmem) rfl
    | inr hminus =>
      rw [hminus]
      decide
  rw [scalar?, number?_append hl hr]
  · rfl
  all_goals
    intro s h
    exact absurd (hhead _ s h) (by decide)

/-! ### Values -/

/-- The blanks in front of a token and behind it. -/
structure Gaps where
  before : Text
  after : Text
  before_blank : ∀ c ∈ before, isSpace c = true
  after_blank : ∀ c ∈ after, isSpace c = true

def Gaps.around (g : Gaps) (t : Text) : Text := g.before ++ (t ++ g.after)

/-- A value within an array or an object, as it is written. -/
structure Item where
  value : Json
  written : Text
  gaps : Gaps

def Item.text (i : Item) : Text := i.gaps.around i.written

/-- A member of an object, as it is written. -/
structure Member extends Item where
  name : List StringPart
  body : Text
  spelled : BodySpelled name body
  nameGaps : Gaps

namespace Member

def text (m : Member) : Text := m.nameGaps.around (quoted m.body) ++ ':' :: m.toItem.text

/-- The member, with the text that its name denotes. -/
def content (m : Member) : Option Text × Json := (denoted? m.name, m.value)

end Member

/-- The texts of items or members, with commas between them. -/
def commas (ts : List Text) : Text := [','].intercalate ts

/-- The ways to write a value, from its first character to its last. -/
inductive Spelled : Json → Text → Prop
  | null : Spelled .null "null".toList
  | bool (b : Bool) : Spelled (.bool b) (if b then "true".toList else "false".toList)
  | number {l : Text} : IsNumber l → Spelled (.number l) l
  | string {ps : List StringPart} {body : Text} : BodySpelled ps body →
      Spelled (ofParts ps) (quoted body)
  | emptyArray {b : Text} : (∀ c ∈ b, isSpace c = true) → Spelled (.array []) ('[' :: (b ++ [']']))
  | array {items : List Item} : items ≠ [] → (∀ i ∈ items, Spelled i.value i.written) →
      Spelled (.array (items.map Item.value)) ('[' :: (commas (items.map Item.text) ++ [']']))
  | emptyObject {b : Text} : (∀ c ∈ b, isSpace c = true) →
      Spelled (.object []) ('{' :: (b ++ ['}']))
  | object {members : List Member} : members ≠ [] → (∀ m ∈ members, Spelled m.value m.written) →
      Spelled (ofMembers (members.map Member.content))
        ('{' :: (commas (members.map Member.text) ++ ['}']))

/-! ### Blanks -/

theorem skipSpace_append {b : Text} (hb : ∀ c ∈ b, isSpace c = true) (t : Text) :
    skipSpace (b ++ t) = skipSpace t := List.dropWhile_append_of_pos hb

theorem skipSpace_cons {c : Char} (h : isSpace c = false) (t : Text) :
    skipSpace (c :: t) = c :: t := by
  rw [skipSpace, List.dropWhile_cons, h]
  rfl

theorem Ends.behind_blank {b r : Text} (hb : ∀ c ∈ b, isSpace c = true) (hr : Ends r) :
    Ends (b ++ r) := by
  cases b with
  | nil => exact hr
  | cons d b =>
    have hd := hb d List.mem_cons_self
    simp only [isSpace, Bool.or_eq_true, beq_iff_eq] at hd
    refine ends_cons ?_ (b ++ r)
    obtain ((rfl | rfl) | rfl) | rfl := hd <;> decide

theorem isSpace_of_isDigit {c : Char} (h : c.isDigit = true) : isSpace c = false := by
  have hne : ∀ d : Char, d.isDigit = false → c ≠ d := fun d => ne_of_isDigit h
  simp [isSpace, hne]

/-- A written value begins neither with a blank nor with a bracket that closes. -/
theorem Spelled.exists_cons {v : Json} {t : Text} (h : Spelled v t) :
    ∃ c s, t = c :: s ∧ isSpace c = false ∧ c ≠ ']' := by
  cases h with
  | null => exact ⟨_, _, rfl, rfl, by decide⟩
  | bool b => cases b <;> exact ⟨_, _, rfl, rfl, by decide⟩
  | string _ => exact ⟨_, _, rfl, rfl, by decide⟩
  | emptyArray _ => exact ⟨_, _, rfl, rfl, by decide⟩
  | array _ _ => exact ⟨_, _, rfl, rfl, by decide⟩
  | emptyObject _ => exact ⟨_, _, rfl, rfl, by decide⟩
  | object _ _ => exact ⟨_, _, rfl, rfl, by decide⟩
  | number hl =>
    obtain ⟨c, s, rfl, hc⟩ := hl.exists_cons
    cases hc with
    | inl hdigit => exact ⟨c, s, rfl, isSpace_of_isDigit hdigit, ne_of_isDigit hdigit rfl⟩
    | inr hminus => exact ⟨c, s, rfl, by rw [hminus]; rfl, by rw [hminus]; decide⟩

theorem Spelled.skipSpace_eq {v : Json} {t : Text} (h : Spelled v t) (r : Text) :
    skipSpace (t ++ r) = t ++ r := by
  obtain ⟨c, s, rfl, hc, -⟩ := h.exists_cons
  exact skipSpace_cons hc (s ++ r)

/-! ### Steps of the readers -/

theorem value?_scalar {fuel : Nat} {t s : Text} {c : Char} (ht : skipSpace t = c :: s)
    (hc : c ≠ '[' ∧ c ≠ '{') : value? (fuel + 1) t = scalar? (c :: s) := by
  rw [value?, ht]
  split
  · rename_i h
    exact absurd (List.cons.inj h).1 hc.1
  · rename_i h
    exact absurd (List.cons.inj h).1 hc.2
  · rfl

theorem value?_array {fuel : Nat} {t s : Text} (ht : skipSpace t = '[' :: s)
    (hs : (skipSpace s).head? ≠ some ']') :
    value? (fuel + 1) t = (items? fuel (skipSpace s)).map fun (vs, r) => (.array vs, r) := by
  have hclose : ∀ r, skipSpace s = ']' :: r → False := fun r h => hs (by rw [h]; rfl)
  simp only [value?, ht]

theorem value?_object {fuel : Nat} {t s : Text} (ht : skipSpace t = '{' :: s)
    (hs : (skipSpace s).head? ≠ some '}') :
    value? (fuel + 1) t = (members? fuel (skipSpace s)).map fun (ms, r) => (ofMembers ms, r) := by
  have hclose : ∀ r, skipSpace s = '}' :: r → False := fun r h => hs (by rw [h]; rfl)
  simp only [value?, ht]

theorem items?_last {fuel : Nat} {t r s : Text} {v : Json} (hv : value? fuel t = some (v, r))
    (hr : skipSpace r = ']' :: s) : items? (fuel + 1) t = some ([v], s) := by
  simp only [items?, hv, hr]

theorem items?_more {fuel : Nat} {t r s : Text} {v : Json} (hv : value? fuel t = some (v, r))
    (hr : skipSpace r = ',' :: s) :
    items? (fuel + 1) t = (items? fuel s).map fun (vs, r) => (v :: vs, r) := by
  simp only [items?, hv, hr]

theorem members?_last {fuel : Nat} {t q r s p : Text} {k : Option Text} {v : Json}
    (hk : key? (skipSpace t) = some (k, q)) (hq : skipSpace q = ':' :: s)
    (hv : value? fuel s = some (v, r)) (hr : skipSpace r = '}' :: p) :
    members? (fuel + 1) t = some ([(k, v)], p) := by
  simp only [members?, hk, hq, hv, hr]

theorem members?_more {fuel : Nat} {t q r s p : Text} {k : Option Text} {v : Json}
    (hk : key? (skipSpace t) = some (k, q)) (hq : skipSpace q = ':' :: s)
    (hv : value? fuel s = some (v, r)) (hr : skipSpace r = ',' :: p) :
    members? (fuel + 1) t = (members? fuel p).map fun (ms, r) => ((k, v) :: ms, r) := by
  simp only [members?, hk, hq, hv, hr]

/-! ### Written values are read -/

/-- A value is read from behind blanks, up to a text with which no number goes on. -/
def ReadFrom (t : Text) (v : Json) : Prop :=
  ∀ (fuel : Nat) (r u : Text), 2 * t.length ≤ fuel → Ends r → skipSpace u = t ++ r →
    value? fuel u = some (v, r)

theorem readFrom_of_scalar? {v : Json} {t : Text} (ht : ∃ c s, t = c :: s ∧ c ≠ '[' ∧ c ≠ '{')
    (h : ∀ r, Ends r → scalar? (t ++ r) = some (v, r)) : ReadFrom t v := by
  obtain ⟨c, s, rfl, hc⟩ := ht
  intro fuel r u hfuel hr hu
  rw [List.length_cons] at hfuel
  obtain ⟨fuel, rfl⟩ : ∃ f, fuel = f + 1 := ⟨fuel - 1, by omega⟩
  rw [value?_scalar hu hc]
  exact h r hr

theorem commas_cons (t : Text) {ts : List Text} (h : ts ≠ []) :
    commas (t :: ts) = t ++ ',' :: commas ts := by
  obtain ⟨u, ts, rfl⟩ := List.exists_cons_of_ne_nil h
  rw [commas, List.intercalate_cons_cons, List.append_assoc]
  rfl

/-- An item is read with the blanks around it; what follows is a comma or a bracket. -/
theorem Item.value?_text {i : Item} (hi : ReadFrom i.written i.value) {fuel : Nat} {c : Char}
    {r u : Text} (hfuel : 2 * i.text.length ≤ fuel) (hc : c.isDigit = false ∧ c ∉ ['.', 'e', 'E'])
    (hspelled : Spelled i.value i.written) (hu : skipSpace u = skipSpace (i.text ++ c :: r)) :
    value? fuel u = some (i.value, i.gaps.after ++ c :: r) := by
  have hlength : i.text.length = i.gaps.before.length + (i.written.length + i.gaps.after.length) := by
    simp [Item.text, Gaps.around]
  apply hi fuel _ u (by omega) ((ends_cons hc r).behind_blank i.gaps.after_blank)
  rw [hu, Item.text, Gaps.around, List.append_assoc, List.append_assoc,
    skipSpace_append i.gaps.before_blank, hspelled.skipSpace_eq]

/-- Items are read one by one. -/
theorem items?_commas {items : List Item} (hne : items ≠ [])
    (hitems : ∀ i ∈ items, Spelled i.value i.written ∧ ReadFrom i.written i.value) {fuel : Nat}
    {r u : Text} (hfuel : 2 * (commas (items.map Item.text)).length < fuel)
    (hu : skipSpace u = skipSpace (commas (items.map Item.text) ++ ']' :: r)) :
    items? fuel u = some (items.map Item.value, r) := by
  induction items generalizing fuel u with
  | nil => exact absurd rfl hne
  | cons i items ih =>
    obtain ⟨⟨hspelled, hread⟩, hitems⟩ := List.forall_mem_cons.1 hitems
    obtain ⟨fuel, rfl⟩ : ∃ f, fuel = f + 1 := ⟨fuel - 1, by omega⟩
    cases items with
    | nil =>
      have hone : commas ([i].map Item.text) = i.text := List.intercalate_singleton
      rw [hone] at hfuel hu
      apply items?_last (i.value?_text hread (by omega) (by decide) hspelled hu)
      rw [skipSpace_append i.gaps.after_blank, skipSpace_cons (by decide)]
    | cons j items =>
      have hmore : commas ((i :: j :: items).map Item.text) =
          i.text ++ ',' :: commas ((j :: items).map Item.text) := commas_cons i.text (by simp)
      rw [hmore, List.length_append, List.length_cons] at hfuel
      rw [hmore, List.append_assoc, List.cons_append] at hu
      rw [items?_more (i.value?_text hread (by omega) (by decide) hspelled hu)
        ((skipSpace_append i.gaps.after_blank _).trans (skipSpace_cons (by decide) _)),
        ih (List.cons_ne_nil j items) hitems (by omega) rfl]
      rfl

/-- A name is read with the blanks around it, and the colon behind it. -/
theorem Member.key?_text (m : Member) {r u : Text}
    (hu : skipSpace u = skipSpace (m.text ++ r)) : ∃ q, key? (skipSpace u) = some (denoted? m.name, q) ∧
      skipSpace q = ':' :: (m.toItem.text ++ r) := by
  refine ⟨m.nameGaps.after ++ ':' :: (m.toItem.text ++ r), ?_, ?_⟩
  · have hquote : ∀ s, skipSpace (quoted m.body ++ s) = quoted m.body ++ s :=
      fun s => skipSpace_cons (by decide) _
    rw [hu, text, Gaps.around, List.append_assoc, List.append_assoc, List.append_assoc,
      skipSpace_append m.nameGaps.before_blank, hquote, key?_quoted m.spelled]
    rfl
  · rw [skipSpace_append m.nameGaps.after_blank, skipSpace_cons (by decide)]

/-- Members are read one by one. -/
theorem members?_commas {members : List Member} (hne : members ≠ [])
    (hmembers : ∀ m ∈ members, Spelled m.value m.written ∧ ReadFrom m.written m.value) {fuel : Nat}
    {r u : Text} (hfuel : 2 * (commas (members.map Member.text)).length < fuel)
    (hu : skipSpace u = skipSpace (commas (members.map Member.text) ++ '}' :: r)) :
    members? fuel u = some (members.map Member.content, r) := by
  induction members generalizing fuel u with
  | nil => exact absurd rfl hne
  | cons m members ih =>
    obtain ⟨⟨hspelled, hread⟩, hmembers⟩ := List.forall_mem_cons.1 hmembers
    obtain ⟨fuel, rfl⟩ : ∃ f, fuel = f + 1 := ⟨fuel - 1, by omega⟩
    have hlength : m.toItem.text.length ≤ m.text.length := by
      simp [Member.text]
      omega
    cases members with
    | nil =>
      have hone : commas ([m].map Member.text) = m.text := List.intercalate_singleton
      rw [hone] at hfuel hu
      obtain ⟨q, hkey, hcolon⟩ := m.key?_text hu
      apply members?_last hkey hcolon
        (m.toItem.value?_text hread (by omega) (by decide) hspelled rfl)
      rw [skipSpace_append m.gaps.after_blank, skipSpace_cons (by decide)]
    | cons k members =>
      have hmore : commas ((m :: k :: members).map Member.text) =
          m.text ++ ',' :: commas ((k :: members).map Member.text) := commas_cons m.text (by simp)
      rw [hmore, List.length_append, List.length_cons] at hfuel
      rw [hmore, List.append_assoc, List.cons_append] at hu
      obtain ⟨q, hkey, hcolon⟩ := m.key?_text hu
      rw [members?_more hkey hcolon
        (m.toItem.value?_text hread (by omega) (by decide) hspelled rfl)
        ((skipSpace_append m.gaps.after_blank _).trans (skipSpace_cons (by decide) _)),
        ih (List.cons_ne_nil k members) hmembers (by omega) rfl]
      rfl

theorem exists_commas_eq (t : Text) (ts : List Text) (r : Text) :
    ∃ q, commas (t :: ts) ++ r = t ++ q := by
  cases ts with
  | nil => exact ⟨r, by rw [commas, List.intercalate_singleton]⟩
  | cons u ts => exact ⟨_, by rw [commas_cons t (List.cons_ne_nil u ts), List.append_assoc]⟩

/-- What stands first within the brackets of an array. -/
theorem exists_head?_items {items : List Item} (hne : items ≠ [])
    (hitems : ∀ i ∈ items, Spelled i.value i.written) (r : Text) :
    ∃ c s, skipSpace (commas (items.map Item.text) ++ r) = c :: s ∧ c ≠ ']' := by
  obtain ⟨i, items, rfl⟩ := List.exists_cons_of_ne_nil hne
  have hi := hitems i List.mem_cons_self
  obtain ⟨c, s, hc, -, hclose⟩ := hi.exists_cons
  obtain ⟨q, hq⟩ := exists_commas_eq i.text (items.map Item.text) r
  rw [List.map_cons, hq, Item.text, Gaps.around, List.append_assoc, List.append_assoc,
    skipSpace_append i.gaps.before_blank, hi.skipSpace_eq, hc]
  exact ⟨c, _, rfl, hclose⟩

/-- What stands first within the braces of an object. -/
theorem exists_head?_members {members : List Member} (hne : members ≠ []) (r : Text) :
    ∃ s, skipSpace (commas (members.map Member.text) ++ r) = '"' :: s := by
  obtain ⟨m, members, rfl⟩ := List.exists_cons_of_ne_nil hne
  obtain ⟨q, hq⟩ := exists_commas_eq m.text (members.map Member.text) r
  rw [List.map_cons, hq, Member.text, Gaps.around, List.append_assoc, List.append_assoc,
    List.append_assoc, skipSpace_append m.nameGaps.before_blank]
  exact ⟨_, skipSpace_cons (by decide) _⟩

/-- **A written value is read**, from behind blanks and under every fuel that its length pays for. -/
theorem readFrom_of_spelled {v : Json} {t : Text} (h : Spelled v t) : ReadFrom t v := by
  induction h with
  | null => exact readFrom_of_scalar? ⟨'n', _, rfl, by decide⟩ fun r _ => by simp [scalar?, Text.skip?]
  | bool b =>
    cases b with
    | true =>
      exact readFrom_of_scalar? ⟨'t', _, rfl, by decide⟩ fun r _ => by simp [scalar?, Text.skip?]
    | false =>
      exact readFrom_of_scalar? ⟨'f', _, rfl, by decide⟩ fun r _ => by simp [scalar?, Text.skip?]
  | number hl =>
    refine readFrom_of_scalar? ?_ fun r => scalar?_number hl
    obtain ⟨c, s, hc, hfirst⟩ := hl.exists_cons
    refine ⟨c, s, hc, ?_⟩
    cases hfirst with
    | inl hdigit => exact ⟨ne_of_isDigit hdigit rfl, ne_of_isDigit hdigit rfl⟩
    | inr hminus => rw [hminus]; decide
  | string hbody =>
    exact readFrom_of_scalar? ⟨'"', _, rfl, by decide⟩ fun r _ => scalar?_quoted hbody r
  | @emptyArray b hb =>
    intro fuel r u hfuel hr hu
    obtain ⟨fuel, rfl⟩ : ∃ f, fuel = f + 1 := ⟨fuel - 1, by simp at hfuel; omega⟩
    have hclose : skipSpace (b ++ [']'] ++ r) = ']' :: r := by
      rw [List.append_assoc, skipSpace_append hb]
      exact skipSpace_cons (by decide) r
    rw [List.cons_append] at hu
    rw [value?, hu]
    simp only [hclose]
  | @array items hne hspelled ih =>
    intro fuel r u hfuel hr hu
    obtain ⟨fuel, rfl⟩ : ∃ f, fuel = f + 1 := ⟨fuel - 1, by simp at hfuel; omega⟩
    have hsplit : skipSpace u = '[' :: (commas (items.map Item.text) ++ ']' :: r) := by simp [hu]
    obtain ⟨c, s, hc, hclose⟩ := exists_head?_items hne hspelled (']' :: r)
    have hidem : skipSpace (skipSpace (commas (items.map Item.text) ++ ']' :: r)) =
        skipSpace (commas (items.map Item.text) ++ ']' :: r) := List.dropWhile_idempotent _ _
    simp only [List.length_cons, List.length_append] at hfuel
    rw [value?_array hsplit, items?_commas hne (fun i hi => ⟨hspelled i hi, ih i hi⟩) (by omega) hidem]
    · rfl
    · rw [hc]
      intro h
      exact hclose (Option.some.inj h)
  | @emptyObject b hb =>
    intro fuel r u hfuel hr hu
    obtain ⟨fuel, rfl⟩ : ∃ f, fuel = f + 1 := ⟨fuel - 1, by simp at hfuel; omega⟩
    have hclose : skipSpace (b ++ ['}'] ++ r) = '}' :: r := by
      rw [List.append_assoc, skipSpace_append hb]
      exact skipSpace_cons (by decide) r
    rw [List.cons_append] at hu
    rw [value?, hu]
    simp only [hclose]
  | @object members hne hspelled ih =>
    intro fuel r u hfuel hr hu
    obtain ⟨fuel, rfl⟩ : ∃ f, fuel = f + 1 := ⟨fuel - 1, by simp at hfuel; omega⟩
    have hsplit : skipSpace u = '{' :: (commas (members.map Member.text) ++ '}' :: r) := by simp [hu]
    obtain ⟨s, hc⟩ := exists_head?_members hne ('}' :: r)
    have hidem : skipSpace (skipSpace (commas (members.map Member.text) ++ '}' :: r)) =
        skipSpace (commas (members.map Member.text) ++ '}' :: r) := List.dropWhile_idempotent _ _
    simp only [List.length_cons, List.length_append] at hfuel
    rw [value?_object hsplit,
      members?_commas hne (fun m hm => ⟨hspelled m hm, ih m hm⟩) (by omega) hidem]
    · rfl
    · rw [hc]
      intro h
      exact absurd (Option.some.inj h) (by decide)

/-- **The reader finds the value of every text that is written by the grammar**, with blanks around it. -/
theorem parse?_of_spelled {v : Json} {t : Text} (h : Spelled v t) (g : Gaps) :
    parse? (g.around t) = some v := by
  have hfuel : 2 * t.length ≤ 2 * (g.around t).length + 2 := by
    simp [Gaps.around]
    omega
  have hends : Ends g.after := by
    rw [← List.append_nil g.after]
    exact ends_nil.behind_blank g.after_blank
  have hskip : skipSpace (g.around t) = t ++ g.after := by
    rw [Gaps.around, skipSpace_append g.before_blank, h.skipSpace_eq]
  have hblank : skipSpace g.after = [] := List.dropWhile_eq_nil_iff.2 g.after_blank
  rw [parse?, readFrom_of_spelled h _ _ _ hfuel hends hskip]
  exact if_pos hblank

end Outline.Json
