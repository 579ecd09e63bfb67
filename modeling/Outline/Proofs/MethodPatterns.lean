import Outline.Component.Script
import Outline.Proofs.LowerCase
import Outline.Proofs.Spans

/-!
# The shapes of methods

What the scan of a script reads, as shapes of texts.

* `Script.IsName`, `Script.IsHead` — the name of a method, and what stands between it and its body;
* `Script.IsDeclared` — a function declaration up to its body;
* `Script.head?_eq_some_iff`, `Script.named?_eq_some_iff`, `Script.declared?_eq_some_iff` — the
  readers read these shapes, and nothing else;
* `Script.exists_of_method_within`, `Script.exists_of_method_declared` — no method begins inside
  what has been read of another one, or of a declaration.
-/

namespace Outline

/-! ### Classes of characters -/

/-- No blank can stand in a word. -/
theorem isWord_of_isBlank {c : Char} (h : isBlank c = true) : isWord c = false := by
  by_cases hc : c.toNat < 128
  · exact forall_ascii (P := fun c => isBlank c = true → isWord c = false) (by decide) hc h
  · have hapart : ∀ b ∈ farBlanks, ∀ w ∈ wordRanges, w.2 < b.1 ∨ b.2 < w.1 := by decide +kernel
    rw [isBlank_of_not_ascii hc] at h
    obtain ⟨b, hb, hfirst, hlast⟩ := (Ranges.has_iff _ c).1 h
    rw [isWord, if_neg hc, Bool.eq_false_iff]
    intro hw
    obtain ⟨w, hw, hfirst', hlast'⟩ := (Ranges.has_iff _ c).1 hw
    rcases hapart b hb w hw with hlt | hlt <;> omega

namespace Script

theorem continuesName_of_isBlank {c : Char} (h : isBlank c = true) : continuesName c = false := by
  rw [continuesName, isWord_of_isBlank h]
  simp only [Bool.false_or, beq_eq_false_iff_ne]
  rintro rfl
  exact absurd h (by decide)

theorem ascii_of_isAlpha {c : Char} (h : c.isAlpha = true) : c.toNat < 128 := by
  rcases Bool.or_eq_true_iff.1 h with hupper | hlower
  · have hle : c.toNat ≤ 'Z'.toNat := (of_decide_eq_true hupper).2
    exact Nat.lt_of_le_of_lt hle (by decide)
  · have hle : c.toNat ≤ 'z'.toNat := of_decide_eq_true (Bool.and_eq_true_iff.1 hlower).2
    exact Nat.lt_of_le_of_lt hle (by decide)

theorem ascii_of_startsName {c : Char} (h : startsName c = true) : c.toNat < 128 := by
  simp only [startsName, Bool.or_eq_true, beq_iff_eq] at h
  rcases h with (h | rfl) | rfl
  · exact ascii_of_isAlpha h
  · decide
  · decide

theorem continuesName_of_startsName {c : Char} (h : startsName c = true) :
    continuesName c = true :=
  forall_ascii (P := fun c => startsName c = true → continuesName c = true) (by decide)
    (ascii_of_startsName h) h

theorem startsName_of_isBlank {c : Char} (h : isBlank c = true) : startsName c = false := by
  rw [Bool.eq_false_iff]
  intro hc
  have hcont := continuesName_of_startsName hc
  rw [continuesName_of_isBlank h] at hcont
  cases hcont

theorem isBlank_of_startsName {c : Char} (h : startsName c = true) : isBlank c = false := by
  rw [Bool.eq_false_iff]
  intro hblank
  rw [startsName_of_isBlank hblank] at h
  cases h

theorem noParenthesis_of_continuesName {c : Char} (h : continuesName c = true) :
    noParenthesis c = true := by
  simp only [noParenthesis, Bool.and_eq_true, decide_eq_true_eq]
  constructor <;> rintro rfl <;> exact absurd h (by decide)

theorem noParenthesis_of_isBlank {c : Char} (h : isBlank c = true) : noParenthesis c = true := by
  simp only [noParenthesis, Bool.and_eq_true, decide_eq_true_eq]
  constructor <;> rintro rfl <;> exact absurd h (by decide)

/-! ### Names, heads and declarations -/

/-- A name: a character that starts one, and characters that go on with it. -/
def IsName (name : Text) : Prop :=
  ∃ c r, name = c :: r ∧ startsName c = true ∧ ∀ d ∈ r, continuesName d = true

/-- A head: a parameter list without inner parentheses and a brace, with blanks before either. -/
def IsHead (head : Text) : Prop :=
  ∃ before inside behind, (∀ c ∈ before, isBlank c = true) ∧
    (∀ c ∈ inside, noParenthesis c = true) ∧ (∀ c ∈ behind, isBlank c = true) ∧
    head = before ++ '(' :: (inside ++ ')' :: (behind ++ ['{']))

/-- The word `function` with blanks behind it. -/
def IsKeyword (keyword : Text) : Prop :=
  ∃ gap, gap ≠ [] ∧ (∀ c ∈ gap, isBlank c = true) ∧ keyword = "function".toList ++ gap

/-- A function declaration up to the brace of its body. -/
def IsDeclared (read : Text) : Prop :=
  ∃ keyword name head, IsKeyword keyword ∧ IsName name ∧ IsHead head ∧
    read = keyword ++ (name ++ head)

theorem IsName.continues {name : Text} (h : IsName name) : ∀ c ∈ name, continuesName c = true := by
  obtain ⟨c, r, rfl, hc, hr⟩ := h
  exact List.forall_mem_cons.2 ⟨continuesName_of_startsName hc, hr⟩

theorem isName_function : IsName "function".toList :=
  ⟨'f', _, rfl, by decide, List.all_eq_true.1 (by decide)⟩

/-- A head begins with no character of a name. -/
theorem IsHead.exists_cons {head : Text} (h : IsHead head) :
    ∃ c r, head = c :: r ∧ continuesName c = false := by
  obtain ⟨before, inside, behind, hbefore, -, -, rfl⟩ := h
  cases before with
  | nil => exact ⟨'(', _, rfl, by decide⟩
  | cons b before =>
    exact ⟨b, _, rfl, continuesName_of_isBlank (hbefore b (List.mem_cons_self ..))⟩

theorem IsHead.exists_concat {head : Text} (h : IsHead head) : ∃ y, head = y ++ ['{'] := by
  obtain ⟨before, inside, behind, -, -, -, rfl⟩ := h
  exact ⟨before ++ '(' :: (inside ++ ')' :: behind), by simp⟩

theorem IsDeclared.exists_concat {read : Text} (h : IsDeclared read) : ∃ y, read = y ++ ['{'] := by
  obtain ⟨keyword, name, head, -, -, hhead, rfl⟩ := h
  obtain ⟨y, rfl⟩ := hhead.exists_concat
  exact ⟨keyword ++ (name ++ y), by simp⟩

theorem head?_eq_some_iff {t head rest : Text} :
    head? t = some (head, rest) ↔ IsHead head ∧ t = head ++ rest := by
  constructor
  · intro h
    refine ⟨?_, eq_of_head? h⟩
    obtain ⟨inside, -, h⟩ := Option.bind_eq_some_iff.1 h
    obtain ⟨behind, -, h⟩ := Option.bind_eq_some_iff.1 h
    obtain ⟨r, -, he⟩ := Option.map_eq_some_iff.1 h
    obtain ⟨rfl, -⟩ := Prod.mk.inj he
    refine ⟨t.takeWhile isBlank, inside.takeWhile noParenthesis, behind.takeWhile isBlank, ?_, ?_,
      ?_, by simp⟩ <;> exact List.all_eq_true.1 List.all_takeWhile
  · rintro ⟨⟨before, inside, behind, hbefore, hinside, hbehind, rfl⟩, rfl⟩
    have hopen : isBlank '(' = false := by decide
    have hclose : noParenthesis ')' = false := by decide
    have hbrace : isBlank '{' = false := by decide
    simp only [List.append_assoc, List.cons_append, List.nil_append]
    simp only [head?, takeWhile_span hbefore hopen, dropWhile_span hbefore hopen, Text.skip?,
      if_pos, Option.bind_some, takeWhile_span hinside hclose, dropWhile_span hinside hclose,
      takeWhile_span hbehind hbrace, dropWhile_span hbehind hbrace, Option.map_some]
    simp

theorem named?_eq_some_iff {t : Text} {n : NamedHead} :
    named? t = some n ↔ IsName n.name ∧ IsHead n.head ∧ t = n.name ++ (n.head ++ n.rest) := by
  constructor
  · intro h
    have ht := eq_of_named? h
    rw [List.append_assoc] at ht
    cases t with
    | nil => cases h
    | cons c r =>
      simp only [named?] at h
      split at h
      · rename_i hc
        obtain ⟨⟨head, rest⟩, hhead, rfl⟩ := Option.map_eq_some_iff.1 h
        exact ⟨⟨c, _, rfl, hc, List.all_eq_true.1 List.all_takeWhile⟩,
          (head?_eq_some_iff.1 hhead).1, ht⟩
      · cases h
  · obtain ⟨name, head, rest⟩ := n
    rintro ⟨⟨c, r, rfl, hc, hr⟩, hhead, rfl⟩
    obtain ⟨d, head', hd, hstop⟩ := hhead.exists_cons
    have hread : head? (head ++ rest) = some (head, rest) := head?_eq_some_iff.2 ⟨hhead, rfl⟩
    obtain rfl : head = d :: head' := hd
    simp only [List.cons_append] at hread ⊢
    rw [named?, if_pos hc, takeWhile_span hr hstop, dropWhile_span hr hstop, hread,
      Option.map_some]

theorem named?_append {name head : Text} (hname : IsName name) (hhead : IsHead head) (rest : Text) :
    named? (name ++ (head ++ rest)) = some ⟨name, head, rest⟩ :=
  named?_eq_some_iff.2 ⟨hname, hhead, rfl⟩

theorem declared?_eq_some_iff {t read rest : Text} :
    declared? t = some (read, rest) ↔ IsDeclared read ∧ t = read ++ rest := by
  constructor
  · intro h
    refine ⟨?_, eq_of_declared? h⟩
    obtain ⟨r, -, h⟩ := Option.bind_eq_some_iff.1 h
    split at h
    · rename_i hblank
      obtain ⟨n, hn, he⟩ := Option.map_eq_some_iff.1 h
      obtain ⟨rfl, -⟩ := Prod.mk.inj he
      obtain ⟨hname, hhead, -⟩ := named?_eq_some_iff.1 hn
      refine ⟨_, n.name, n.head, ⟨r.takeWhile isBlank, ?_, List.all_eq_true.1 List.all_takeWhile,
        rfl⟩, hname, hhead, by simp⟩
      cases r with
      | nil => cases hblank
      | cons c r =>
        have hc : isBlank c = true := hblank
        rw [List.takeWhile_cons_of_pos hc]
        exact List.cons_ne_nil _ _
    · cases h
  · rintro ⟨⟨_, name, head, ⟨gap, hgap, hblank, rfl⟩, hname, hhead, rfl⟩, rfl⟩
    have hn := named?_append hname hhead rest
    have hfirst : (gap ++ (name ++ (head ++ rest))).head?.any isBlank = true := by
      obtain ⟨b, gap, rfl⟩ := List.exists_cons_of_ne_nil hgap
      exact hblank b (List.mem_cons_self ..)
    obtain ⟨c, r, rfl, hc, hr⟩ := hname
    have hstop : isBlank c = false := isBlank_of_startsName hc
    simp only [List.append_assoc, List.cons_append] at hn hfirst ⊢
    have hskip := Text.skip?_eq_some_iff.2
      (Eq.refl ("function".toList ++ (gap ++ c :: (r ++ (head ++ rest)))))
    rw [declared?, hskip, Option.bind_some, if_pos hfirst, takeWhile_span hblank hstop,
      dropWhile_span hblank hstop, hn, Option.map_some]
    simp

theorem declared?_append {read : Text} (hread : IsDeclared read) (rest : Text) :
    declared? (read ++ rest) = some (read, rest) :=
  declared?_eq_some_iff.2 ⟨hread, rfl⟩

/-! ### What has been read hides nothing -/

/-- No name goes on to the end of a text. -/
def Fresh (before : Text) : Prop :=
  ∀ x, x <:+ before → (∀ c ∈ x, continuesName c = true) → ∀ c ∈ x, startsName c = false

theorem Fresh.of_suffix {s t : Text} (h : Fresh t) (hs : s <:+ t) : Fresh s :=
  fun x hx => h x (hx.trans hs)

/-- What stands before a method within a name is not the beginning of that name. -/
theorem Fresh.eq_nil_of_isName {p q : Text} (h : Fresh p) (hname : IsName (p ++ q)) : p = [] := by
  cases p with
  | nil => rfl
  | cons c p =>
    have hcont : ∀ d ∈ c :: p, continuesName d = true :=
      fun d hd => hname.continues d (List.mem_append_left q hd)
    obtain ⟨c', r, he, hstart, -⟩ := hname
    obtain ⟨rfl, -⟩ := List.cons.inj he
    have hstop := h _ List.suffix_rfl hcont c (List.mem_cons_self ..)
    rw [hstart] at hstop
    cases hstop

section

variable {name head after : Text}

theorem ne_name_of_not_startsName {c : Char} {r : Text} (hc : startsName c = false)
    (hname : IsName name) : c :: r ≠ name ++ after := by
  obtain ⟨c', r', rfl, hc', -⟩ := hname
  intro he
  obtain ⟨rfl, -⟩ := List.cons.inj he
  rw [hc] at hc'
  cases hc'

theorem ne_name_of_blanks {s r : Text} {c : Char} (hs : ∀ d ∈ s, isBlank d = true)
    (hc : startsName c = false) (hname : IsName name) : s ++ c :: r ≠ name ++ after := by
  cases s with
  | nil => exact ne_name_of_not_startsName hc hname
  | cons b s =>
    exact ne_name_of_not_startsName (startsName_of_isBlank (hs b (List.mem_cons_self ..))) hname

/-- No method begins inside a head: within the parameter list the closing parenthesis comes before
any other one, and elsewhere no name begins. -/
theorem ne_method_of_suffix_head {h q rest : Text} (hh : IsHead h) (hq : q <:+ h) (hne : q ≠ [])
    (hname : IsName name) (hhead : IsHead head) : q ++ rest ≠ name ++ (head ++ after) := by
  obtain ⟨before, inside, behind, hbefore, hinside, hbehind, rfl⟩ := hh
  rcases suffix_span hq with ⟨s, hs, rfl⟩ | hq
  · -- within the blanks before the list
    rw [List.append_assoc]
    exact ne_name_of_blanks (fun c hc => hbefore c (hs.subset hc)) (by decide) hname
  rcases suffix_span hq with ⟨s, hs, rfl⟩ | hq
  · -- within the list
    obtain ⟨before', inside', behind', hbefore', -, -, rfl⟩ := hhead
    intro he
    have hfront : ∀ c ∈ name ++ before', noParenthesis c = true :=
      List.forall_mem_append.2 ⟨fun c hc => noParenthesis_of_continuesName (hname.continues c hc),
        fun c hc => noParenthesis_of_isBlank (hbefore' c hc)⟩
    have he : s ++ ')' :: ((behind ++ ['{']) ++ rest) =
        (name ++ before') ++ '(' :: ((inside' ++ ')' :: (behind' ++ ['{'])) ++ after) := by
      simpa using he
    have hparens := (span_unique he (fun c hc => hinside c (hs.subset hc)) hfront (by decide)
      (by decide)).2.1
    exact absurd hparens (by decide)
  rcases suffix_span hq with ⟨s, hs, rfl⟩ | hq
  · -- within the blanks behind the list
    rw [List.append_assoc]
    exact ne_name_of_blanks (fun c hc => hbehind c (hs.subset hc)) (by decide) hname
  · exact absurd (List.suffix_nil.1 hq) hne

/-- **No method begins inside another one.** -/
theorem exists_of_method_within {n : NamedHead} {p : Text} (hn : IsName n.name) (hh : IsHead n.head)
    (he : n.name ++ (n.head ++ n.rest) = p ++ (name ++ (head ++ after))) (hp : p ≠ [])
    (hfresh : Fresh p) (hname : IsName name) (hhead : IsHead head) :
    ∃ p', p = n.name ++ n.head ++ p' ∧ n.rest = p' ++ (name ++ (head ++ after)) := by
  rcases List.append_eq_append_iff.1 he with ⟨a, rfl, hbehind⟩ | ⟨q, hq, -⟩
  · rcases List.append_eq_append_iff.1 hbehind with ⟨b, rfl, hrest⟩ | ⟨q, hq, hrest⟩
    · exact ⟨b, (List.append_assoc _ _ _).symm, hrest⟩
    · by_cases hnil : q = []
      · subst hnil
        rw [List.append_nil] at hq
        exact ⟨[], by rw [hq, List.append_nil], hrest.symm⟩
      · have hsuffix : q <:+ n.head := ⟨a, hq.symm⟩
        exact absurd hrest.symm (ne_method_of_suffix_head hh hsuffix hnil hname hhead)
  · exact absurd (hfresh.eq_nil_of_isName (hq ▸ hn)) hp

/-- The word `function` before blanks and a name is no name with a head. -/
theorem ne_method_of_isKeyword {keyword name' rest : Text} (hk : IsKeyword keyword)
    (hname' : IsName name') (hname : IsName name) (hhead : IsHead head) :
    keyword ++ (name' ++ rest) ≠ name ++ (head ++ after) := by
  obtain ⟨gap, hgap, hblank, rfl⟩ := hk
  obtain ⟨g, gap, rfl⟩ := List.exists_cons_of_ne_nil hgap
  obtain ⟨h, head', rfl, hstop⟩ := hhead.exists_cons
  obtain ⟨c, r, rfl, hc, -⟩ := hname'
  rw [List.append_assoc]
  intro he
  have hg : continuesName g = false := continuesName_of_isBlank (hblank g (List.mem_cons_self ..))
  obtain ⟨-, rfl, hrest⟩ := span_unique he isName_function.continues hname.continues hg hstop
  -- the blanks of the gap are the ones before the list, and the name follows in place of the list
  obtain ⟨before, inside, behind, hbefore, -, -, hlist⟩ := hhead
  have hgap : (g :: gap) ++ c :: (r ++ rest) =
      before ++ '(' :: ((inside ++ ')' :: (behind ++ ['{'])) ++ after) :=
    calc (g :: gap) ++ c :: (r ++ rest) = (g :: head') ++ after := congrArg (g :: ·) hrest
      _ = _ := by rw [hlist]; simp
  obtain ⟨-, rfl, -⟩ :=
    span_unique hgap hblank hbefore (isBlank_of_startsName hc) (by decide)
  exact absurd hc (by decide)

/-- **No method begins inside a declaration**, if the name that is declared is none. -/
theorem exists_of_method_declared {read rest p : Text} (hread : IsDeclared read)
    (he : read ++ rest = p ++ (name ++ (head ++ after))) (hkeyword : ¬IsKeyword p)
    (hfresh : Fresh p) (hname : IsName name) (hhead : IsHead head) :
    ∃ p', p = read ++ p' ∧ rest = p' ++ (name ++ (head ++ after)) := by
  obtain ⟨keyword, name', head', hk, hname', hhead', rfl⟩ := hread
  rw [List.append_assoc, List.append_assoc] at he
  rcases List.append_eq_append_iff.1 he with ⟨a, rfl, hbehind⟩ | ⟨q, rfl, hbehind⟩
  · have ha : a ≠ [] := by
      rintro rfl
      exact hkeyword (by rwa [List.append_nil])
    have hfresh' : Fresh a := hfresh.of_suffix (List.suffix_append _ _)
    obtain ⟨p', rfl, hrest⟩ := exists_of_method_within (n := ⟨name', head', rest⟩) hname' hhead'
      hbehind ha hfresh' hname hhead
    exact ⟨p', by simp, hrest⟩
  · have hq : q ≠ [] := by
      rintro rfl
      exact hkeyword (by rwa [List.append_nil] at hk)
    have hshape := hk
    obtain ⟨gap, hgap, hblank, hsplit⟩ := hshape
    rcases List.append_eq_append_iff.1 hsplit with ⟨w, hw, rfl⟩ | ⟨w, rfl, rfl⟩
    · -- the method begins within the word
      have hnil : p = [] := hfresh.eq_nil_of_isName (hw ▸ isName_function)
      subst hnil
      exact absurd hbehind.symm (ne_method_of_isKeyword hk hname' hname hhead)
    · -- or within the blanks
      obtain ⟨b, q, rfl⟩ := List.exists_cons_of_ne_nil hq
      have hb : startsName b = false :=
        startsName_of_isBlank (hblank b (List.mem_append_right w (List.mem_cons_self ..)))
      exact absurd hbehind.symm (ne_name_of_not_startsName hb hname)

end

end Script

end Outline
