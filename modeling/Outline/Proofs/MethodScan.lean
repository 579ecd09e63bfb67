import Mathlib.Data.List.Basic
import Outline.Component
import Outline.Proofs.MethodPatterns
import Outline.Proofs.ScriptMethods

/-!
# Which methods a script has

The scan of a script goes on behind each success, and finds every method nevertheless.

* `Script.IsMethod` — what the text around a method is like;
* `Script.Found` — the methods that stand behind a place, wherever a scan would look;
* `Script.Passed` — nothing that a scan has passed over reads as a method or a declaration;
* `Script.found_declared_iff`, `Script.found_named_iff`, `Script.found_cons_iff` — each step of the
  scan passes over no method but the one that it reads;
* `Script.mem_heads_iff` — so the scan lists the methods behind a place, and no others.
-/

namespace Outline.Script

/-! ### Methods and the places before them -/

/-- Whether a text ends within a word. -/
def endsInWord (t : Text) : Bool := t.getLast?.any isWord

@[simp] theorem endsInWord_concat (t : Text) (c : Char) : endsInWord (t ++ [c]) = isWord c := by
  rw [endsInWord, List.getLast?_concat]
  rfl

/-- Whether the word `function` and blanks end a text. -/
def IsDeclaring (before : Text) : Prop :=
  ∃ b keyword, before = b ++ keyword ∧ IsKeyword keyword ∧ endsInWord b = false

/-- A name and a head behind a text: no name goes on to it, and it is not being declared. -/
structure IsMethod (before name head : Text) : Prop where
  isName : IsName name
  isHead : IsHead head
  fresh : Fresh before
  undeclared : ¬IsDeclaring before

/-- A method that stands in a text, with its offset counted from further ahead. -/
def Found (before t : Text) (m : Method) : Prop :=
  ∃ p name head after, t = p ++ (name ++ (head ++ after)) ∧ IsMethod (before ++ p) name head ∧
    m = ⟨name, Text.byteSize (before ++ p)⟩

/-- Nothing that begins ahead of a place reads as a method or a declaration, unless a brace stands
between. -/
def Passed (before t : Text) : Prop :=
  ∀ b x, before = b ++ x → x ≠ [] → '{' ∉ x →
    named? (x ++ t) = none ∧ (endsInWord b = false → declared? (x ++ t) = none)

theorem Found.of_append {before read rest : Text} {m : Method} (h : Found (before ++ read) rest m) :
    Found before (read ++ rest) m := by
  obtain ⟨p, name, head, after, rfl, hm, rfl⟩ := h
  rw [List.append_assoc] at hm ⊢
  exact ⟨read ++ p, name, head, after, (List.append_assoc _ _ _).symm, hm, rfl⟩

/-! ### What a scan has passed over -/

section

variable {before t : Text}

theorem passed_nil (t : Text) : Passed [] t := by
  intro b x h hx
  exact absurd (List.append_eq_nil_iff.1 h.symm).2 hx

theorem passed_brace (before t : Text) : Passed (before ++ ['{']) t := by
  intro b x h hx hbrace
  obtain ⟨y, c, rfl⟩ := (List.eq_nil_or_concat' x).resolve_left hx
  rw [← List.append_assoc] at h
  obtain ⟨-, hc⟩ := List.append_inj' h rfl
  exact absurd (List.mem_append_right y (hc ▸ List.mem_singleton_self '{')) hbrace

/-- A success ends with a brace, and behind it everything begins anew. -/
theorem after_brace {read : Text} (h : ∃ y, read = y ++ ['{']) (before rest : Text) :
    endsInWord (before ++ read) = false ∧ Passed (before ++ read) rest := by
  obtain ⟨y, rfl⟩ := h
  rw [← List.append_assoc]
  exact ⟨endsInWord_concat _ _, passed_brace _ _⟩

theorem Passed.concat {c : Char} (h : Passed before (c :: t)) (hn : named? (c :: t) = none)
    (hd : endsInWord before = false → declared? (c :: t) = none) : Passed (before ++ [c]) t := by
  intro b x he hx hbrace
  obtain ⟨y, c', rfl⟩ := (List.eq_nil_or_concat' x).resolve_left hx
  rw [← List.append_assoc] at he
  obtain ⟨rfl, hc⟩ := List.append_inj' he rfl
  obtain rfl : c = c' := List.singleton_inj.1 hc
  rw [List.append_assoc]
  by_cases hy : y = []
  · subst hy
    rw [List.append_nil] at hd
    exact ⟨hn, hd⟩
  · exact h b y rfl hy fun hmem => hbrace (List.mem_append_left _ hmem)

theorem not_brace_of_continuesName {x : Text} (h : ∀ c ∈ x, continuesName c = true) : '{' ∉ x :=
  fun hx => absurd (h _ hx) (by decide)

theorem IsKeyword.not_brace {keyword : Text} (h : IsKeyword keyword) : '{' ∉ keyword := by
  obtain ⟨gap, -, hblank, rfl⟩ := h
  intro hmem
  rcases List.mem_append.1 hmem with hmem | hmem
  · exact absurd hmem (by decide)
  · exact absurd (hblank _ hmem) (by decide)

theorem IsKeyword.ne_nil {keyword : Text} (h : IsKeyword keyword) : keyword ≠ [] := by
  obtain ⟨gap, hgap, -, rfl⟩ := h
  exact List.append_ne_nil_of_right_ne_nil _ hgap

theorem Passed.fresh {n : NamedHead} (h : Passed before t) (hn : named? t = some n) :
    Fresh before := by
  intro x hx hcont d hd
  rw [Bool.eq_false_iff]
  intro hstart
  obtain ⟨u, v, rfl⟩ := List.append_of_mem hd
  obtain ⟨b, rfl⟩ := hx
  obtain ⟨hname, hhead, rfl⟩ := named?_eq_some_iff.1 hn
  have hrun : ∀ c ∈ d :: v, continuesName c = true :=
    fun c hc => hcont c (List.mem_append_right u hc)
  have hnone := (h (b ++ u) (d :: v) (List.append_assoc _ _ _).symm (List.cons_ne_nil _ _)
    (not_brace_of_continuesName hrun)).1
  -- the name that has been read goes on from `d`
  have hlonger : IsName ((d :: v) ++ n.name) :=
    ⟨d, v ++ n.name, rfl, hstart,
      List.forall_mem_append.2 ⟨(List.forall_mem_cons.1 hrun).2, hname.continues⟩⟩
  have hread := named?_append hlonger hhead n.rest
  rw [List.append_assoc, hnone] at hread
  cases hread

theorem Passed.not_isDeclaring {n : NamedHead} (h : Passed before t) (hn : named? t = some n) :
    ¬IsDeclaring before := by
  rintro ⟨b, keyword, rfl, hk, hb⟩
  have hnone := (h b keyword rfl hk.ne_nil hk.not_brace).2 hb
  obtain ⟨hname, hhead, rfl⟩ := named?_eq_some_iff.1 hn
  have hread := declared?_append ⟨keyword, n.name, n.head, hk, hname, hhead, rfl⟩ n.rest
  rw [List.append_assoc, List.append_assoc, hnone] at hread
  cases hread

end

/-! ### Steps of the scan -/

section

variable {before t : Text} {m : Method}

theorem found_declared_iff {read rest : Text} (hd : declared? t = some (read, rest))
    (hword : endsInWord before = false) : Found before t m ↔ Found (before ++ read) rest m := by
  obtain ⟨hread, rfl⟩ := declared?_eq_some_iff.1 hd
  refine ⟨?_, Found.of_append⟩
  rintro ⟨p, name, head, after, he, hm, rfl⟩
  have hkeyword : ¬IsKeyword p := fun hk => hm.undeclared ⟨before, p, rfl, hk, hword⟩
  have hfresh : Fresh p := hm.fresh.of_suffix (List.suffix_append before p)
  obtain ⟨p', rfl, hrest⟩ := exists_of_method_declared hread he hkeyword hfresh hm.isName hm.isHead
  rw [← List.append_assoc] at hm ⊢
  exact ⟨p', name, head, after, hrest, hm, rfl⟩

theorem found_named_iff {n : NamedHead} (h : Passed before t) (hn : named? t = some n) :
    Found before t m ↔
      m = ⟨n.name, Text.byteSize before⟩ ∨ Found (before ++ (n.name ++ n.head)) n.rest m := by
  obtain ⟨hname, hhead, ht⟩ := named?_eq_some_iff.1 hn
  constructor
  · rintro ⟨p, name, head, after, he, hm, rfl⟩
    by_cases hp : p = []
    · subst hp
      have hread := named?_append hm.isName hm.isHead after
      rw [← List.nil_append (name ++ _), ← he, hn] at hread
      obtain rfl := Option.some.inj hread
      rw [List.append_nil]
      exact Or.inl rfl
    · have hfresh : Fresh p := hm.fresh.of_suffix (List.suffix_append before p)
      obtain ⟨p', rfl, hrest⟩ :=
        exists_of_method_within hname hhead (ht.symm.trans he) hp hfresh hm.isName hm.isHead
      rw [← List.append_assoc] at hm ⊢
      exact Or.inr ⟨p', name, head, after, hrest, hm, rfl⟩
  · rintro (rfl | hm)
    · refine ⟨[], n.name, n.head, n.rest, ht, ?_, by rw [List.append_nil]⟩
      rw [List.append_nil]
      exact ⟨hname, hhead, h.fresh hn, h.not_isDeclaring hn⟩
    · have hm := hm.of_append
      rwa [List.append_assoc, ← ht] at hm

theorem found_cons_iff {c : Char} (hn : named? (c :: t) = none) :
    Found before (c :: t) m ↔ Found (before ++ [c]) t m := by
  refine ⟨?_, Found.of_append⟩
  rintro ⟨p, name, head, after, he, hm, rfl⟩
  cases p with
  | nil =>
    have hread := named?_append hm.isName hm.isHead after
    rw [← List.nil_append (name ++ _), ← he, hn] at hread
    cases hread
  | cons d p =>
    obtain ⟨rfl, rfl⟩ := List.cons.inj he
    have hm : IsMethod (before ++ [c] ++ p) name head := by simpa using hm
    exact ⟨p, name, head, after, rfl, hm, by simp⟩

theorem not_found_nil : ¬Found before [] m := by
  rintro ⟨p, name, head, after, h, hm, -⟩
  obtain ⟨c, r, rfl, -, -⟩ := hm.isName
  simp at h

end

/-- **The scan from a place lists the methods behind it.** -/
theorem mem_heads_iff (afterWord : Bool) (offset : Nat) (t : Text) :
    ∀ before, afterWord = endsInWord before → offset = Text.byteSize before → Passed before t →
      ∀ m, m ∈ heads afterWord offset t ↔ Found before t m := by
  fun_induction heads afterWord offset t with
  | case1 =>
    intro before _ _ _ m
    exact iff_of_false List.not_mem_nil not_found_nil
  | case2 afterWord offset c r read rest hd ih =>
    intro before hword hoffset hpassed m
    cases afterWord with
    | true => cases hd
    | false =>
      obtain ⟨hend, hpass⟩ := after_brace (declared?_eq_some_iff.1 hd).1.exists_concat before rest
      rw [found_declared_iff hd hword.symm]
      exact ih (before ++ read) hend.symm (by rw [hoffset, Text.byteSize_append]) hpass m
  | case3 afterWord offset c r hd n hn ih =>
    intro before hword hoffset hpassed m
    have hbrace : ∃ y, n.name ++ n.head = y ++ ['{'] := by
      obtain ⟨y, hy⟩ := (named?_eq_some_iff.1 hn).2.1.exists_concat
      exact ⟨n.name ++ y, by rw [hy, List.append_assoc]⟩
    obtain ⟨hend, hpass⟩ := after_brace hbrace before n.rest
    subst hoffset
    rw [List.mem_cons, found_named_iff hpassed hn]
    exact or_congr_right
      (ih (before ++ (n.name ++ n.head)) hend.symm (Text.byteSize_append _ _).symm hpass m)
  | case4 afterWord offset c r hd hn ih =>
    intro before hword hoffset hpassed m
    have hundeclared : endsInWord before = false → declared? (c :: r) = none := by
      intro hend
      rwa [hword, hend] at hd
    rw [found_cons_iff hn]
    exact ih (before ++ [c]) (endsInWord_concat before c).symm
      (by rw [hoffset, Text.byteSize_append]; rfl) (hpassed.concat hn hundeclared) m

end Outline.Script
