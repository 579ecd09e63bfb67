import Mathlib.Data.Option.Basic
import Outline.Proofs.JsonGrammar

/-!
# What the JSON reader accepts

The other side of the grammar: whatever is read has been written by it.

* `Json.number_of_number?`, `Json.body_of_stringBody?`, `Json.spelled_of_scalar?` — numbers, strings and
  other scalars, with what is left behind them;
* `Json.Written` — what the three readers for values promise under one fuel;
* `Json.parse?_eq_some_iff` — a text is read as a value exactly if the grammar writes the value so, with
  blanks around it.

The promise is kept by one more unit of fuel (`Json.Written.value_succ` and its like), which the readers for
items and members use for one item each.
-/

namespace Outline.Json

variable {t r : Text}

/-! ### Numbers -/

theorem isDigits_of_digits? {ds : Text} (h : digits? t = some (ds, r)) : IsDigits ds ∧ t = ds ++ r := by
  rw [digits?] at h
  split at h
  · cases h
  · rename_i hne
    cases h
    refine ⟨⟨hne, fun c hc => ?_⟩, List.takeWhile_append_dropWhile.symm⟩
    exact List.all_eq_true.1 List.all_takeWhile c hc

theorem isWhole_of_whole? {w : Text} (h : whole? t = some (w, r)) : IsWhole w ∧ t = w ++ r := by
  unfold whole? at h
  split at h
  · cases h
    exact ⟨.zero, rfl⟩
  · rename_i hzero
    obtain ⟨hds, rfl⟩ := isDigits_of_digits? h
    refine ⟨.digits hds fun hhead => ?_, rfl⟩
    obtain ⟨c, ds, rfl⟩ := List.exists_cons_of_ne_nil hds.ne_nil
    cases hhead
    exact hzero _ rfl

theorem isFraction_of_fraction? {f : Text} (h : fraction? t = some (f, r)) :
    IsFraction f ∧ t = f ++ r := by
  unfold fraction? at h
  split at h
  · obtain ⟨⟨ds, q⟩, hread, hf⟩ := Option.map_eq_some_iff.1 h
    obtain ⟨hds, hsplit⟩ := isDigits_of_digits? hread
    cases hf
    exact ⟨.point hds, by rw [hsplit]; rfl⟩
  · cases h
    exact ⟨.absent, rfl⟩

theorem eq_of_exponentSign {sign : Text} (h : exponentSign t = (sign, r)) :
    sign ∈ [[], ['+'], ['-']] ∧ t = sign ++ r := by
  unfold exponentSign at h
  split at h
  · cases h
    exact ⟨by simp, rfl⟩
  · cases h
    exact ⟨by simp, rfl⟩
  · cases h
    exact ⟨by simp, rfl⟩

theorem isExponent_of_exponent? {e : Text} (h : exponent? t = some (e, r)) :
    IsExponent e ∧ t = e ++ r := by
  unfold exponent? at h
  split at h
  · cases h
    exact ⟨.absent, rfl⟩
  · rename_i c s
    split at h
    · rename_i hc
      obtain ⟨⟨sign, s'⟩, hsigned⟩ : ∃ p, exponentSign s = p := ⟨_, rfl⟩
      rw [hsigned] at h
      obtain ⟨hsign, hsplit⟩ := eq_of_exponentSign hsigned
      obtain ⟨⟨ds, q⟩, hread, he⟩ := Option.map_eq_some_iff.1 h
      obtain ⟨hds, hrest⟩ := isDigits_of_digits? hread
      obtain ⟨rfl, rfl⟩ := Prod.mk.inj he
      refine ⟨.power hc hsign hds, ?_⟩
      rw [hsplit, hrest]
      simp
    · cases h
      exact ⟨.absent, rfl⟩

theorem isNumber_of_unsigned? {l : Text} (h : unsigned? t = some (l, r)) :
    ∃ w f e, IsWhole w ∧ IsFraction f ∧ IsExponent e ∧ l = w ++ (f ++ e) ∧ t = l ++ r := by
  simp only [unsigned?, Option.bind_eq_bind, Option.bind_eq_some_iff, Option.some.injEq] at h
  obtain ⟨⟨w, t₁⟩, hwhole, ⟨f, t₂⟩, hfraction, ⟨e, t₃⟩, hexponent, hl⟩ := h
  obtain ⟨hw, hrest₁⟩ := isWhole_of_whole? hwhole
  obtain ⟨hf, hrest₂⟩ := isFraction_of_fraction? hfraction
  obtain ⟨he, hrest₃⟩ := isExponent_of_exponent? hexponent
  obtain ⟨rfl, rfl⟩ := Prod.mk.inj hl
  dsimp only at hrest₂ hrest₃
  rw [hrest₁, hrest₂, hrest₃]
  exact ⟨w, f, e, hw, hf, he, List.append_assoc w f e, by simp⟩

theorem number_of_number? {l : Text} (h : number? t = some (l, r)) : IsNumber l ∧ t = l ++ r := by
  unfold number? at h
  split at h
  · obtain ⟨⟨m, q⟩, hm, hl⟩ := Option.map_eq_some_iff.1 h
    obtain ⟨w, f, e, hw, hf, he, hsplit, hrest⟩ := isNumber_of_unsigned? hm
    obtain ⟨rfl, rfl⟩ := Prod.mk.inj hl
    rw [hrest, hsplit]
    exact ⟨.negative hw hf he, rfl⟩
  · obtain ⟨w, f, e, hw, hf, he, hsplit, hrest⟩ := isNumber_of_unsigned? h
    rw [hrest, hsplit]
    exact ⟨.unsigned hw hf he, rfl⟩

/-! ### Strings -/

/-- A part that has been read stands in front of the rest of the string. -/
theorem exists_body_cons {p : StringPart} {ps : List StringPart} {s q : Text} (hp : PartSpelled p s)
    (hq : ∀ {qs}, stringBody? q = some (qs, r) → ∃ body, BodySpelled qs body ∧ q = body ++ '"' :: r)
    (h : ((stringBody? q).map fun x => (p :: x.1, x.2)) = some (ps, r)) :
    ∃ body, BodySpelled ps body ∧ s ++ q = body ++ '"' :: r := by
  obtain ⟨⟨qs, u⟩, hqs, hps⟩ := Option.map_eq_some_iff.1 h
  obtain ⟨rfl, rfl⟩ := Prod.mk.inj hps
  obtain ⟨body, hbody, hsplit⟩ := hq hqs
  exact ⟨s ++ body, .cons hp hbody, by rw [hsplit, List.append_assoc]⟩

theorem body_of_stringBody? {ps : List StringPart} (h : stringBody? t = some (ps, r)) :
    ∃ body, BodySpelled ps body ∧ t = body ++ '"' :: r := by
  fun_induction stringBody? t generalizing ps with
  | case1 => cases h
  | case2 q =>
    cases h
    exact ⟨[], .nil, rfl⟩
  | case3 a b c d q ih =>
    obtain ⟨n, hn, hrest⟩ := Option.bind_eq_some_iff.1 h
    exact exists_body_cons (.unit hn) ih hrest
  | case4 e q _ ih =>
    obtain ⟨c, hc, hrest⟩ := Option.bind_eq_some_iff.1 h
    exact exists_body_cons (.escape hc) ih hrest
  | case5 => cases h
  | case6 c q hquote _ hescape hc ih =>
    have hslash : c ≠ '\\' := by
      intro hslash
      cases q with
      | nil => cases h
      | cons e q => exact hescape e q hslash rfl
    exact exists_body_cons (.itself (by omega) hquote hslash) ih h

theorem quoted_of_key? {k : Option Text} (h : key? t = some (k, r)) :
    ∃ ps body, BodySpelled ps body ∧ k = denoted? ps ∧ t = quoted body ++ r := by
  unfold key? at h
  split at h
  · obtain ⟨⟨ps, q⟩, hps, hk⟩ := Option.map_eq_some_iff.1 h
    obtain ⟨rfl, rfl⟩ := Prod.mk.inj hk
    obtain ⟨body, hbody, hsplit⟩ := body_of_stringBody? hps
    exact ⟨ps, body, hbody, rfl, by simp [quoted, hsplit]⟩
  · cases h

theorem spelled_of_scalar? {v : Json} (h : scalar? t = some (v, r)) :
    ∃ w, Spelled v w ∧ t = w ++ r := by
  have hword : ∀ {word : Text} {u : Json}, Spelled u word →
      ((Text.skip? word t).map fun r => (u, r)) = some (v, r) → ∃ w, Spelled v w ∧ t = w ++ r := by
    intro word u hu h
    obtain ⟨q, hq, hv⟩ := Option.map_eq_some_iff.1 h
    obtain ⟨rfl, rfl⟩ := Prod.mk.inj hv
    exact ⟨word, hu, Text.skip?_eq_some_iff.1 hq⟩
  unfold scalar? at h
  split at h
  · obtain ⟨⟨ps, q⟩, hps, hv⟩ := Option.map_eq_some_iff.1 h
    obtain ⟨rfl, rfl⟩ := Prod.mk.inj hv
    obtain ⟨body, hbody, hsplit⟩ := body_of_stringBody? hps
    exact ⟨quoted body, .string hbody, by simp [quoted, hsplit]⟩
  · exact hword .null h
  · exact hword (.bool true) h
  · exact hword (.bool false) h
  · obtain ⟨⟨l, q⟩, hl, hv⟩ := Option.map_eq_some_iff.1 h
    obtain ⟨rfl, rfl⟩ := Prod.mk.inj hv
    obtain ⟨hnumber, hsplit⟩ := number_of_number? hl
    exact ⟨l, .number hnumber, hsplit⟩

/-! ### Values -/

theorem exists_blanks (t : Text) : ∃ b, (∀ c ∈ b, isSpace c = true) ∧ t = b ++ skipSpace t :=
  ⟨t.takeWhile isSpace, fun c hc => List.all_eq_true.1 List.all_takeWhile c hc,
    List.takeWhile_append_dropWhile.symm⟩

theorem skipSpace_skipSpace (t : Text) : skipSpace (skipSpace t) = skipSpace t :=
  List.dropWhile_idempotent _ t

theorem value?_skipSpace (fuel : Nat) (t : Text) : value? fuel (skipSpace t) = value? fuel t := by
  cases fuel with
  | zero => rfl
  | succ fuel => rw [value?, value?, skipSpace_skipSpace]

theorem items?_skipSpace (fuel : Nat) (t : Text) : items? fuel (skipSpace t) = items? fuel t := by
  cases fuel with
  | zero => rfl
  | succ fuel => rw [items?, items?, value?_skipSpace]

theorem members?_skipSpace (fuel : Nat) (t : Text) :
    members? fuel (skipSpace t) = members? fuel t := by
  cases fuel with
  | zero => rfl
  | succ fuel => rw [members?, members?, skipSpace_skipSpace]

/-- What the three readers for values promise: what has been read is written by the grammar, and stands in
front of what is left. -/
structure Written (fuel : Nat) : Prop where
  value : ∀ {t r : Text} {v : Json}, value? fuel t = some (v, r) →
    ∃ b w, (∀ c ∈ b, isSpace c = true) ∧ Spelled v w ∧ t = b ++ (w ++ r)
  items : ∀ {t r : Text} {vs : List Json}, items? fuel t = some (vs, r) → ∃ items : List Item,
    items ≠ [] ∧ (∀ i ∈ items, Spelled i.value i.written) ∧ items.map Item.value = vs ∧
      t = commas (items.map Item.text) ++ ']' :: r
  members : ∀ {t r : Text} {ms : List (Option Text × Json)}, members? fuel t = some (ms, r) →
    ∃ members : List Member, members ≠ [] ∧ (∀ m ∈ members, Spelled m.value m.written) ∧
      members.map Member.content = ms ∧ t = commas (members.map Member.text) ++ '}' :: r

namespace Written

variable {fuel : Nat}

theorem value_succ (h : Written fuel) {v : Json} (hv : value? (fuel + 1) t = some (v, r)) :
    ∃ b w, (∀ c ∈ b, isSpace c = true) ∧ Spelled v w ∧ t = b ++ (w ++ r) := by
  obtain ⟨b, hb, hlead⟩ := exists_blanks t
  suffices hread : ∃ w, Spelled v w ∧ skipSpace t = w ++ r by
    obtain ⟨w, hw, hskip⟩ := hread
    exact ⟨b, w, hb, hw, by rw [← hskip]; exact hlead⟩
  rw [value?] at hv
  split at hv
  · rename_i s hs
    obtain ⟨b', hb', hlead'⟩ := exists_blanks s
    split at hv
    · rename_i q hq
      obtain ⟨rfl, rfl⟩ := Prod.mk.inj (Option.some.inj hv)
      rw [hq] at hlead'
      exact ⟨_, .emptyArray hb', by rw [hs, hlead']; simp⟩
    · rw [items?_skipSpace] at hv
      obtain ⟨⟨vs, q⟩, hvs, heq⟩ := Option.map_eq_some_iff.1 hv
      obtain ⟨rfl, rfl⟩ := Prod.mk.inj heq
      obtain ⟨items, hne, hitems, rfl, hsplit⟩ := h.items hvs
      exact ⟨_, .array hne hitems, by rw [hs, hsplit]; simp⟩
  · rename_i s hs
    obtain ⟨b', hb', hlead'⟩ := exists_blanks s
    split at hv
    · rename_i q hq
      obtain ⟨rfl, rfl⟩ := Prod.mk.inj (Option.some.inj hv)
      rw [hq] at hlead'
      exact ⟨_, .emptyObject hb', by rw [hs, hlead']; simp⟩
    · rw [members?_skipSpace] at hv
      obtain ⟨⟨ms, q⟩, hms, heq⟩ := Option.map_eq_some_iff.1 hv
      obtain ⟨rfl, rfl⟩ := Prod.mk.inj heq
      obtain ⟨members, hne, hmembers, rfl, hsplit⟩ := h.members hms
      exact ⟨_, .object hne hmembers, by rw [hs, hsplit]; simp⟩
  · exact spelled_of_scalar? hv

theorem items_succ (h : Written fuel) {vs : List Json} (hvs : items? (fuel + 1) t = some (vs, r)) :
    ∃ items : List Item, items ≠ [] ∧ (∀ i ∈ items, Spelled i.value i.written) ∧
      items.map Item.value = vs ∧ t = commas (items.map Item.text) ++ ']' :: r := by
  rw [items?] at hvs
  split at hvs
  · cases hvs
  · rename_i v q hv
    obtain ⟨b, w, hb, hw, hsplit⟩ := h.value hv
    obtain ⟨b', hb', hlead⟩ := exists_blanks q
    split at hvs
    · rename_i s hs
      obtain ⟨rfl, rfl⟩ := Prod.mk.inj (Option.some.inj hvs)
      refine ⟨[⟨v, w, ⟨b, b', hb, hb'⟩⟩], List.cons_ne_nil _ _, List.forall_mem_singleton.2 hw, rfl, ?_⟩
      rw [hsplit, hlead, hs]
      simp [commas, Item.text, Gaps.around]
    · rename_i s hs
      obtain ⟨⟨us, q'⟩, hus, heq⟩ := Option.map_eq_some_iff.1 hvs
      obtain ⟨rfl, rfl⟩ := Prod.mk.inj heq
      obtain ⟨items, hne, hitems, rfl, hrest⟩ := h.items hus
      refine ⟨⟨v, w, ⟨b, b', hb, hb'⟩⟩ :: items, List.cons_ne_nil _ _,
        List.forall_mem_cons.2 ⟨hw, hitems⟩, rfl, ?_⟩
      rw [hsplit, hlead, hs, hrest, List.map_cons, commas_cons _ (by simpa using hne)]
      simp [Item.text, Gaps.around]
    · cases hvs

theorem members_succ (h : Written fuel) {ms : List (Option Text × Json)}
    (hms : members? (fuel + 1) t = some (ms, r)) : ∃ members : List Member, members ≠ [] ∧
      (∀ m ∈ members, Spelled m.value m.written) ∧ members.map Member.content = ms ∧
      t = commas (members.map Member.text) ++ '}' :: r := by
  rw [members?] at hms
  split at hms
  · cases hms
  rename_i k q hk
  obtain ⟨b, hb, hlead⟩ := exists_blanks t
  obtain ⟨ps, body, hbody, rfl, hquoted⟩ := quoted_of_key? hk
  obtain ⟨b₁, hb₁, hlead₁⟩ := exists_blanks q
  split at hms
  · rename_i s hs
    split at hms
    · cases hms
    rename_i v u hv
    obtain ⟨b₂, w, hb₂, hw, hsplit⟩ := h.value hv
    obtain ⟨b₃, hb₃, hlead₃⟩ := exists_blanks u
    split at hms
    · rename_i p hp
      obtain ⟨rfl, rfl⟩ := Prod.mk.inj (Option.some.inj hms)
      refine ⟨[⟨⟨v, w, ⟨b₂, b₃, hb₂, hb₃⟩⟩, ps, body, hbody, ⟨b, b₁, hb, hb₁⟩⟩], List.cons_ne_nil _ _,
        List.forall_mem_singleton.2 hw, rfl, ?_⟩
      rw [hlead, hquoted, hlead₁, hs, hsplit, hlead₃, hp]
      simp [commas, Member.text, Item.text, Gaps.around]
    · rename_i p hp
      obtain ⟨⟨ns, q'⟩, hns, heq⟩ := Option.map_eq_some_iff.1 hms
      obtain ⟨rfl, rfl⟩ := Prod.mk.inj heq
      obtain ⟨members, hne, hmembers, rfl, hrest⟩ := h.members hns
      refine ⟨⟨⟨v, w, ⟨b₂, b₃, hb₂, hb₃⟩⟩, ps, body, hbody, ⟨b, b₁, hb, hb₁⟩⟩ :: members,
        List.cons_ne_nil _ _, List.forall_mem_cons.2 ⟨hw, hmembers⟩, rfl, ?_⟩
      rw [hlead, hquoted, hlead₁, hs, hsplit, hlead₃, hp, hrest, List.map_cons,
        commas_cons _ (by simpa using hne)]
      simp [Member.text, Item.text, Gaps.around]
    · cases hms
  · cases hms

end Written

theorem written (fuel : Nat) : Written fuel := by
  induction fuel with
  | zero =>
    constructor
    · intro t r v h
      cases h
    · intro t r vs h
      cases h
    · intro t r ms h
      cases h
  | succ fuel ih => exact ⟨ih.value_succ, ih.items_succ, ih.members_succ⟩

/-- **The reader is exact**: it reads a text as a value if and only if the grammar writes the value so, with
blanks around it. -/
theorem parse?_eq_some_iff {t : Text} {v : Json} :
    parse? t = some v ↔ ∃ (g : Gaps) (w : Text), Spelled v w ∧ t = g.around w := by
  constructor
  · intro h
    rw [parse?] at h
    split at h
    · rename_i u r hread
      split at h
      · rename_i hblank
        obtain ⟨b, w, hb, hw, hsplit⟩ := (written _).value hread
        have hr : ∀ c ∈ r, isSpace c = true := List.dropWhile_eq_nil_iff.1 hblank
        cases h
        exact ⟨⟨b, r, hb, hr⟩, w, hw, hsplit⟩
      · cases h
    · cases h
  · intro h
    obtain ⟨g, w, hw, rfl⟩ := h
    exact parse?_of_spelled hw g

end Outline.Json
