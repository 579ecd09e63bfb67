import Outline.Proofs.MethodScan
import Outline.Proofs.TemplateTags

/-!
# The name of a component

A script names its component in a string literal behind the word `name` and a colon.

* `Script.findWord?_append`, `Script.exists_of_findWord?` — a search for a word passes over what has
  no success in it, and succeeds at a place of the text;
* `Script.KeyAt`, `Script.FirstKey` — the word and its colon, and the first place where they stand;
* `Script.name?_eq_none`, `Script.FirstKey.name?_eq` — a name is the literal behind the first key;
* `Script.literal?_between` — a literal is read up to the next quote, of either kind;
* `ComponentFacts.name_ofText` — so the name is the whole literal if no quote is in it, and only then.
-/

namespace Outline

namespace Script

/-! ### Searching for a word -/

section Searching

variable {α : Type} {test : Text → Option α}

/-- A search passes over a text in which its test succeeds nowhere. -/
theorem findWord?_append (lead before t : Text)
    (h : ∀ b x, before = b ++ x → x ≠ [] → endsInWord (lead ++ b) = false → test (x ++ t) = none) :
    findWord? test (endsInWord lead) (before ++ t) =
      findWord? test (endsInWord (lead ++ before)) t := by
  induction before generalizing lead with
  | nil => rw [List.nil_append, List.append_nil]
  | cons c r ih =>
    have hhere : (if endsInWord lead then none else test (c :: (r ++ t))) = none := by
      split
      · rfl
      · rename_i hlead
        exact h [] (c :: r) rfl (List.cons_ne_nil c r) (by simpa using hlead)
    have hrest := ih (lead ++ [c]) fun b x hr hx hb =>
      h (c :: b) x (congrArg (c :: ·) hr) hx (by simpa using hb)
    rw [endsInWord_concat, List.append_assoc, List.singleton_append] at hrest
    rw [List.cons_append, findWord?, hhere]
    exact hrest

theorem findWord?_of_here {t : Text} {a : α} (ht : t ≠ []) (h : test t = some a) :
    findWord? test false t = some a := by
  obtain ⟨c, r, rfl⟩ := List.exists_cons_of_ne_nil ht
  rw [findWord?, if_neg Bool.false_ne_true, h]

/-- A search that succeeds does so at a place of the text that follows no word. -/
theorem exists_of_findWord? (lead : Text) {t : Text} {a : α}
    (h : findWord? test (endsInWord lead) t = some a) :
    ∃ b x, t = b ++ x ∧ endsInWord (lead ++ b) = false ∧ test x = some a := by
  induction t generalizing lead with
  | nil => cases h
  | cons c r ih =>
    rw [findWord?] at h
    split at h
    · rename_i hhere
      cases h
      split at hhere
      · cases hhere
      · rename_i hlead
        exact ⟨[], c :: r, rfl, by simpa using hlead, hhere⟩
    · rw [← endsInWord_concat lead] at h
      obtain ⟨b, x, rfl, hb, hx⟩ := ih _ h
      exact ⟨c :: b, x, rfl, by simpa using hb, hx⟩

end Searching

/-! ### Keys -/

/-- The word `name` and a colon, with blanks between them. -/
def IsKey (key : Text) : Prop :=
  ∃ gap, (∀ c ∈ gap, isBlank c = true) ∧ key = "name".toList ++ (gap ++ [':'])

/-- A key that begins a word stands between two parts of a script. -/
def KeyAt (script before rest : Text) : Prop :=
  endsInWord before = false ∧ ∃ key, IsKey key ∧ script = before ++ (key ++ rest)

/-- A key stands there, and none stands before it. -/
structure FirstKey (script before rest : Text) : Prop where
  here : KeyAt script before rest
  first : ∀ b r, KeyAt script b r → before.length ≤ b.length

/-- What follows a key at the start of a text. -/
def keyed? (t : Text) : Option Text :=
  (Text.skip? "name".toList t).bind fun r => Text.skip? [':'] r.trimStart

theorem keyed?_eq_some_iff {t rest : Text} :
    keyed? t = some rest ↔ ∃ key, IsKey key ∧ t = key ++ rest := by
  constructor
  · intro h
    obtain ⟨r, hname, hcolon⟩ := Option.bind_eq_some_iff.1 h
    have hr : r.dropWhile isBlank = ':' :: rest := Text.skip?_eq_some_iff.1 hcolon
    refine ⟨_, ⟨r.takeWhile isBlank, List.all_eq_true.1 List.all_takeWhile, rfl⟩, ?_⟩
    rw [Text.skip?_eq_some_iff.1 hname, List.append_assoc, List.append_assoc, List.singleton_append,
      ← hr, List.takeWhile_append_dropWhile]
  · rintro ⟨_, ⟨gap, hgap, rfl⟩, rfl⟩
    rw [List.append_assoc, List.append_assoc, keyed?, Text.skip?_append, Option.bind_some,
      Text.trimStart, List.singleton_append, dropWhile_span hgap (by decide)]
    exact Text.skip?_append [':'] rest

/-- A name is the literal behind a key. -/
theorem nameHere?_eq (t : Text) : nameHere? t = (keyed? t).bind fun r => literal? r.trimStart := by
  rw [nameHere?, keyed?, Option.bind_assoc]
  congr 1
  funext r
  rw [skipMark?, Option.bind_map]
  rfl

theorem KeyAt.length_le {script before rest : Text} (h : KeyAt script before rest) :
    before.length ≤ script.length := by
  obtain ⟨-, key, -, rfl⟩ := h
  exact List.length_append ▸ Nat.le_add_right _ _

/-- A key is found at its place. -/
theorem KeyAt.keyed?_drop {script before rest : Text} (h : KeyAt script before rest) :
    endsInWord (script.take before.length) = false ∧
      keyed? (script.drop before.length) = some rest := by
  obtain ⟨hword, key, hkey, rfl⟩ := h
  rw [List.take_left, List.drop_left]
  exact ⟨hword, keyed?_eq_some_iff.2 ⟨key, hkey, rfl⟩⟩

/-- No key stands at a place where the text does not go on with one. -/
theorem KeyAt.not_of_place {script before rest : Text} (h : KeyAt script before rest)
    (hplace : endsInWord (script.take before.length) = true ∨
      keyed? (script.drop before.length) = none) : False := by
  obtain ⟨hword, hkeyed⟩ := h.keyed?_drop
  rcases hplace with htake | hdrop
  · rw [hword] at htake
    cases htake
  · rw [hkeyed] at hdrop
    cases hdrop

/-! ### Literals -/

/-- A literal holds something, and no quote. -/
theorem literal?_eq_some {t s : Text} (h : literal? t = some s) :
    s ≠ [] ∧ ∀ c ∈ s, isQuote c = false := by
  cases t with
  | nil => cases h
  | cons q r =>
    simp only [literal?] at h
    split at h
    · split at h
      · rename_i hinner
        cases h
        refine ⟨by simpa using (Bool.and_eq_true_iff.1 hinner).1, fun c hc => ?_⟩
        simpa using List.mem_takeWhile_imp hc
      · cases h
    · cases h

/-- A literal goes up to the next quote, whichever it is. -/
theorem literal?_of_quote {q q' : Char} {s rest : Text} (hq : isQuote q = true)
    (hq' : isQuote q' = true) (hne : s ≠ []) (hs : ∀ c ∈ s, isQuote c = false) :
    literal? (q :: (s ++ q' :: rest)) = some s := by
  have htake : (s ++ q' :: rest).takeWhile (fun c => !isQuote c) = s :=
    takeWhile_span (fun c hc => by simp [hs c hc]) (by simp [hq'])
  rw [literal?, if_pos hq, htake, if_pos]
  simp [hne]

/-! ### Names -/

theorem quoteless_of_any {s : Text} (h : s.any isQuote = false) : ∀ c ∈ s, isQuote c = false := by
  simpa using h

/-- No name holds a quote. -/
theorem not_isQuote_of_name? {script s : Text} (h : name? script = some s) :
    ∀ c ∈ s, isQuote c = false := by
  obtain ⟨b, x, -, -, hx⟩ := exists_of_findWord? [] h
  rw [nameHere?_eq] at hx
  obtain ⟨r, -, hliteral⟩ := Option.bind_eq_some_iff.1 hx
  exact (literal?_eq_some hliteral).2

/-- Without a key there is no name. -/
theorem name?_eq_none {script : Text} (h : ∀ before rest, ¬KeyAt script before rest) :
    name? script = none := by
  rw [Option.eq_none_iff_forall_ne_some]
  intro s hs
  obtain ⟨b, x, rfl, hb, hx⟩ := exists_of_findWord? [] hs
  rw [nameHere?_eq] at hx
  obtain ⟨r, hr, -⟩ := Option.bind_eq_some_iff.1 hx
  obtain ⟨key, hkey, rfl⟩ := keyed?_eq_some_iff.1 hr
  exact h b r ⟨hb, key, hkey, rfl⟩

/-- A literal behind the first key is the name. -/
theorem FirstKey.name?_eq {script before rest s : Text} (h : FirstKey script before rest)
    (hs : literal? rest.trimStart = some s) : name? script = some s := by
  obtain ⟨⟨hword, key, hkey, rfl⟩, hfirst⟩ := h
  have hpassed : findWord? nameHere? (endsInWord []) (before ++ (key ++ rest)) =
      findWord? nameHere? (endsInWord ([] ++ before)) (key ++ rest) := by
    apply findWord?_append
    intro b x hbefore hx hb
    rw [nameHere?_eq, Option.bind_eq_none_iff]
    intro r hr
    -- a key within the text before the first one
    obtain ⟨key', hkey', he⟩ := keyed?_eq_some_iff.1 hr
    have hle := hfirst b r ⟨hb, key', hkey', by rw [hbefore, List.append_assoc, he]⟩
    have hpos := List.length_pos_iff.2 hx
    rw [hbefore, List.length_append] at hle
    omega
  have hhere : nameHere? (key ++ rest) = some s := by
    rw [nameHere?_eq, keyed?_eq_some_iff.2 ⟨key, hkey, rfl⟩]
    exact hs
  have hne : key ++ rest ≠ [] := by
    obtain ⟨gap, -, rfl⟩ := hkey
    exact List.cons_ne_nil _ _
  refine hpassed.trans ?_
  rw [List.nil_append, hword]
  exact findWord?_of_here hne hhere

theorem not_isBlank_of_isQuote {q : Char} (h : isQuote q = true) : isBlank q = false := by
  simp only [isQuote, Bool.or_eq_true, beq_iff_eq] at h
  rcases h with rfl | rfl <;> decide

theorem takeWhile_quoteless {s : Text} (h : ∀ c ∈ s, isQuote c = false) :
    (s.takeWhile fun c => !isQuote c) = s :=
  List.takeWhile_eq_self_iff.2 fun c hc => by simp [h c hc]

/-- Between two quotes of a kind, a literal is read up to the first quote. -/
theorem literal?_between {gap s rest : Text} {q : Char} (hgap : ∀ c ∈ gap, isBlank c = true)
    (hq : isQuote q = true) (hne : s ≠ []) (hs : ∀ c ∈ s.head?, isQuote c = false) :
    literal? (Text.trimStart (gap ++ q :: (s ++ q :: rest))) =
      some (s.takeWhile fun c => !isQuote c) := by
  rw [Text.trimStart, dropWhile_span hgap (not_isBlank_of_isQuote hq)]
  have hread : ∀ c ∈ s.takeWhile fun c => !isQuote c, isQuote c = false := by
    intro c hc
    simpa using List.mem_takeWhile_imp hc
  have hread_ne : (s.takeWhile fun c => !isQuote c) ≠ [] := by
    obtain ⟨c, r, rfl⟩ := List.exists_cons_of_ne_nil hne
    rw [List.takeWhile_cons_of_pos (by simp [hs c rfl])]
    exact List.cons_ne_nil _ _
  have hsplit : s = (s.takeWhile fun c => !isQuote c) ++ s.dropWhile fun c => !isQuote c :=
    List.takeWhile_append_dropWhile.symm
  generalize s.takeWhile (fun c => !isQuote c) = read at *
  -- what ends the reading: the first quote in the literal, or the one behind it
  cases hdrop : s.dropWhile fun c => !isQuote c with
  | nil =>
    rw [hdrop, List.append_nil] at hsplit
    rw [hsplit]
    exact literal?_of_quote hq hq hread_ne hread
  | cons q' behind =>
    have hq' : isQuote q' = true := by
      have hhead := List.head?_dropWhile_not (fun c => !isQuote c) s
      rw [hdrop] at hhead
      simpa using hhead
    rw [hdrop] at hsplit
    rw [hsplit, List.append_assoc, List.cons_append]
    exact literal?_of_quote hq hq' hread_ne hread

end Script

namespace ComponentFacts

open Component Script

/-- The text with a script block. -/
def scripted (front attributes script back : Text) : Text :=
  front ++ (openMarker "script" ++ (attributes ++ '>' :: (script ++ (closeMarker "script" ++ back))))

theorem block?_scripted {front attributes script : Text} (back : Text)
    (hfront : ¬openMarker "script" <:+: front) (hattributes : '>' ∉ attributes)
    (hscript : ¬closeMarker "script" <:+: script) :
    block? "script" (scripted front attributes script back) = some ⟨attributes, script⟩ :=
  block?_of_opened? (k := .script) back (opened?_append (k := .script) hfront hattributes _) hscript

/-- **The name of a component is the literal behind the first key of its script, up to the first
quote in it.**  So it is the whole literal if and only if no quote of the other kind is in it; and a
script without a key gives no name. -/
theorem name_ofText (front attributes script back : Text)
    (hfront : ¬openMarker "script" <:+: front) (hattributes : '>' ∉ attributes)
    (hscript : ¬closeMarker "script" <:+: script) :
    let name := (ofText (scripted front attributes script back)).name
    ((∀ before rest, ¬KeyAt script before rest) → name = some anonymous) ∧
    ∀ (before gap s rest : Text) (q : Char),
      FirstKey script before (gap ++ q :: (s ++ q :: rest)) → (∀ c ∈ gap, isBlank c = true) →
      isQuote q = true → s ≠ [] →
      (name = some s ↔ ∀ c ∈ s, isQuote c = false) ∧
      ((∀ c ∈ s.head?, isQuote c = false) → name = some (s.takeWhile fun c => !isQuote c)) := by
  intro name
  have hname : name = some ((name? script).getD anonymous) := by
    show ((block? "script" _).map fun b => (name? b.body).getD anonymous) = _
    rw [block?_scripted back hfront hattributes hscript]
    rfl
  have hquoteless : ∀ c ∈ (name? script).getD anonymous, isQuote c = false := by
    cases hs : name? script with
    | none => exact quoteless_of_any rfl
    | some s => exact not_isQuote_of_name? hs
  refine ⟨?_, ?_⟩
  · intro h
    rw [hname, name?_eq_none h]
    rfl
  · intro before gap s rest q hkey hgap hq hne
    have hread : (∀ c ∈ s.head?, isQuote c = false) →
        name = some (s.takeWhile fun c => !isQuote c) := by
      intro hs
      rw [hname, hkey.name?_eq (literal?_between hgap hq hne hs)]
      rfl
    refine ⟨⟨?_, ?_⟩, hread⟩
    · intro h
      rw [hname] at h
      rwa [Option.some.inj h] at hquoteless
    · intro hs
      rw [hread fun c hc => hs c (List.mem_of_mem_head? hc), takeWhile_quoteless hs]

/-- The second `name` is a word of its own. -/
def renamed : Text := "rename: 'no', name : 'Cart', name: 'no'".toList

theorem firstKey_renamed :
    FirstKey renamed "rename: 'no', ".toList " 'Cart', name: 'no'".toList where
  here := ⟨by decide, "name :".toList, ⟨[' '], List.all_eq_true.1 rfl, rfl⟩, rfl⟩
  first _ _ h := by
    have hplaces : ∀ n < 14, endsInWord (renamed.take n) = true ∨ keyed? (renamed.drop n) = none := by
      decide
    exact Nat.le_of_not_lt fun hlt => h.not_of_place (hplaces _ hlt)

/-- A key within a longer word does not count, and of two that do the first one wins. -/
theorem name_ofText_renamed :
    (ofText (scripted "a".toList " setup".toList renamed "b".toList)).name = some "Cart".toList ∧
    (ofText (scripted [] [] "rename: 'no'".toList [])).name = some anonymous := by
  have hnone : ∀ before rest, ¬KeyAt "rename: 'no'".toList before rest := by
    intro before rest h
    have hplaces : ∀ n ≤ 12, endsInWord ("rename: 'no'".toList.take n) = true ∨
        keyed? ("rename: 'no'".toList.drop n) = none := by decide
    exact h.not_of_place (hplaces _ h.length_le)
  obtain ⟨-, hfirst⟩ := name_ofText "a".toList " setup".toList renamed "b".toList (by decide)
    (by decide) (by decide)
  obtain ⟨hempty, -⟩ := name_ofText [] [] "rename: 'no'".toList [] (by decide) (by decide)
    (by decide)
  have hcart := hfirst _ [' '] "Cart".toList _ '\'' firstKey_renamed (List.all_eq_true.1 rfl)
    (by decide) (by decide)
  exact ⟨hcart.1.2 (quoteless_of_any rfl), hempty hnone⟩

/-- A script whose name holds the quote of the other kind. -/
def quoted : Text := "export default \x7b name: \"Bob's list\" \x7d".toList

theorem firstKey_quoted :
    FirstKey quoted "export default \x7b ".toList " \"Bob's list\" \x7d".toList where
  here := ⟨by decide, "name:".toList, ⟨[], List.forall_mem_nil _, rfl⟩, rfl⟩
  first _ _ h := by
    have hplaces : ∀ n < 17, endsInWord (quoted.take n) = true ∨ keyed? (quoted.drop n) = none := by
      decide
    exact Nat.le_of_not_lt fun hlt => h.not_of_place (hplaces _ hlt)

/-- The name ends at an apostrophe within the literal. -/
theorem name_ofText_quoted :
    ¬closeMarker "script" <:+: quoted ∧
    FirstKey quoted "export default \x7b ".toList
      ([' '] ++ '"' :: ("Bob's list".toList ++ '"' :: " \x7d".toList)) ∧
    '"' ∉ "Bob's list".toList ∧ '\\' ∉ "Bob's list".toList ∧ '\n' ∉ "Bob's list".toList ∧
    (ofText (scripted [] [] quoted [])).name = some "Bob".toList :=
  ⟨by decide, firstKey_quoted, by decide, by decide, by decide, by decide +kernel⟩

end ComponentFacts

end Outline
