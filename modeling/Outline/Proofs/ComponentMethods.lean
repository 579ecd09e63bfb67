import Outline.Proofs.MethodScan

/-!
# The methods of a component

The methods that a scan lists, told from the runs of name characters before parameter lists.

* `Script.Occurs` — a longest run of name characters with a head behind it;
* `Script.methodOf` — the name in such a run, and its place;
* `Script.found_iff_occurs`, `Script.mem_methods_iff` — the methods of a script are the ones of its
  runs, declarations and words of control flow left out;
* `ComponentFacts.listsMethods` — the methods of a component are exactly those of its script.
-/

namespace Outline

/-- A text begins with one text of a size only. -/
theorem Text.append_inj_byteSize {s s' t t' : Text} (h : s ++ t = s' ++ t')
    (hsize : byteSize s = byteSize s') : s = s' := by
  have htake := Text.takeBytes?_byteSize s t
  rw [h, hsize, Text.takeBytes?_byteSize] at htake
  exact (Option.some.inj htake).symm

namespace Script

/-! ### Runs of name characters -/

/-- A head behind a longest run of name characters, one of which can start a name. -/
structure Occurs (script before run head after : Text) : Prop where
  text : script = before ++ (run ++ (head ++ after))
  isHead : IsHead head
  continues : ∀ c ∈ run, continuesName c = true
  starts : ∃ c ∈ run, startsName c = true
  left : ∀ c ∈ before.getLast?, continuesName c = false
  right : ∀ c ∈ (head ++ after).head?, continuesName c = false

/-- What of a run stands before the first character that can start a name. -/
def leadOf (run : Text) : Text := run.takeWhile fun c => !startsName c

/-- The rest of the run. -/
def nameOf (run : Text) : Text := run.dropWhile fun c => !startsName c

/-- The method in a run behind a text. -/
def methodOf (before run : Text) : Method := ⟨nameOf run, Text.byteSize (before ++ leadOf run)⟩

theorem leadOf_append_nameOf (run : Text) : leadOf run ++ nameOf run = run :=
  List.takeWhile_append_dropWhile

theorem not_startsName_of_mem_leadOf {run : Text} : ∀ c ∈ leadOf run, startsName c = false := by
  intro c hc
  have hall := List.all_eq_true.1 List.all_takeWhile c hc
  simpa using hall

theorem leadOf_append {lead name : Text} (hlead : ∀ c ∈ lead, startsName c = false)
    (hname : IsName name) : leadOf (lead ++ name) = lead ∧ nameOf (lead ++ name) = name := by
  obtain ⟨c, r, rfl, hc, -⟩ := hname
  have hall : ∀ d ∈ lead, (!startsName d) = true := fun d hd => by rw [hlead d hd]; rfl
  have hstop : (!startsName c) = false := by rw [hc]; rfl
  exact ⟨takeWhile_span hall hstop, dropWhile_span hall hstop⟩

theorem isName_nameOf {run : Text} (hrun : ∀ c ∈ run, continuesName c = true)
    (hstart : ∃ c ∈ run, startsName c = true) : IsName (nameOf run) := by
  induction run with
  | nil =>
    obtain ⟨c, hc, -⟩ := hstart
    cases hc
  | cons c r ih =>
    have hr : ∀ d ∈ r, continuesName d = true := fun d hd => hrun d (List.mem_cons_of_mem c hd)
    by_cases hc : startsName c = true
    · rw [nameOf, List.dropWhile_cons_of_neg (by simp [hc])]
      exact ⟨c, r, rfl, hc, hr⟩
    · rw [nameOf, List.dropWhile_cons_of_pos (by simp [hc])]
      refine ih hr ?_
      obtain ⟨d, hd, hstart⟩ := hstart
      rcases List.mem_cons.1 hd with rfl | hd
      · exact absurd hstart hc
      · exact ⟨d, hd, hstart⟩

/-- A name goes on to the end of a text only within its last run. -/
theorem fresh_append {before lead : Text} (hleft : ∀ c ∈ before.getLast?, continuesName c = false)
    (hlead : ∀ c ∈ lead, startsName c = false) : Fresh (before ++ lead) := by
  intro x hx hcont
  obtain ⟨b, he⟩ := hx
  rcases List.append_eq_append_iff.1 he with ⟨y, rfl, rfl⟩ | ⟨y, -, rfl⟩
  · -- what stands before the last run ends with no name character
    rcases List.eq_nil_or_concat' y with rfl | ⟨y, d, rfl⟩
    · exact hlead
    · have hd : continuesName d = true := hcont d (by simp)
      rw [hleft d (by simp)] at hd
      cases hd
  · exact fun c hc => hlead c (List.mem_append_right y hc)

/-- What has a name character at its end declares nothing. -/
theorem not_isDeclaring_append {before lead : Text} (hlead : ∀ c ∈ lead, continuesName c = true)
    (hne : lead ≠ []) : ¬IsDeclaring (before ++ lead) := by
  rintro ⟨b, keyword, he, ⟨gap, hgap, hblank, rfl⟩, -⟩
  obtain ⟨l, c, rfl⟩ := (List.eq_nil_or_concat' lead).resolve_left hne
  obtain ⟨g, d, rfl⟩ := (List.eq_nil_or_concat' gap).resolve_left hgap
  simp only [← List.append_assoc] at he
  obtain ⟨-, hc⟩ := List.append_inj' he rfl
  obtain rfl : c = d := List.singleton_inj.1 hc
  have hcont := hlead c (by simp)
  rw [continuesName_of_isBlank (hblank c (by simp))] at hcont
  cases hcont

section

variable {script before run head after : Text}

theorem Occurs.isMethod (h : Occurs script before run head after)
    (hdeclared : ¬(leadOf run = [] ∧ IsDeclaring before)) :
    IsMethod (before ++ leadOf run) (nameOf run) head where
  isName := isName_nameOf h.continues h.starts
  isHead := h.isHead
  fresh := fresh_append h.left not_startsName_of_mem_leadOf
  undeclared := by
    by_cases hlead : leadOf run = []
    · rw [hlead, List.append_nil]
      exact fun hd => hdeclared ⟨hlead, hd⟩
    · exact not_isDeclaring_append
        (fun c hc => h.continues c ((List.takeWhile_subset _) hc)) hlead

theorem IsMethod.exists_occurs {p name : Text} (h : IsMethod p name head)
    (he : script = p ++ (name ++ (head ++ after))) :
    ∃ before run, Occurs script before run head after ∧ p = before ++ leadOf run ∧
      name = nameOf run := by
  obtain ⟨b, x, rfl, hx, hb⟩ := exists_last_span continuesName p
  have hlead : ∀ c ∈ x, startsName c = false := h.fresh x (List.suffix_append b x) hx
  obtain ⟨hl, hn⟩ := leadOf_append hlead h.isName
  obtain ⟨c, r, hhead, hstop⟩ := h.isHead.exists_cons
  refine ⟨b, x ++ name, ⟨by simp [he], h.isHead, ?_, ?_, hb, ?_⟩, by rw [hl], hn.symm⟩
  · exact List.forall_mem_append.2 ⟨hx, h.isName.continues⟩
  · obtain ⟨d, s, rfl, hd, -⟩ := h.isName
    exact ⟨d, by simp, hd⟩
  · rw [hhead]
    intro d hd
    cases hd
    exact hstop

end

/-- **The methods that stand in a script are those of its runs.** -/
theorem found_iff_occurs {script : Text} {m : Method} :
    Found [] script m ↔ ∃ before run head after, Occurs script before run head after ∧
      m = methodOf before run ∧ ¬(leadOf run = [] ∧ IsDeclaring before) := by
  constructor
  · rintro ⟨p, name, head, after, he, hm, rfl⟩
    rw [List.nil_append] at hm ⊢
    obtain ⟨before, run, hoccurs, rfl, rfl⟩ := hm.exists_occurs he
    refine ⟨before, run, head, after, hoccurs, rfl, ?_⟩
    rintro ⟨hlead, hd⟩
    exact hm.undeclared (by rwa [hlead, List.append_nil])
  · rintro ⟨before, run, head, after, hoccurs, rfl, hd⟩
    refine ⟨before ++ leadOf run, nameOf run, head, after, ?_, hoccurs.isMethod hd, rfl⟩
    rw [hoccurs.text, List.append_assoc, ← List.append_assoc (leadOf run), leadOf_append_nameOf]

/-! ### The list of methods -/

theorem mem_methods_iff_found {script : Text} {m : Method} :
    m ∈ methods script ↔ Found [] script m ∧ m.name ∉ controlWords := by
  rw [methods, List.mem_filter, mem_heads_iff false 0 script [] rfl rfl (passed_nil script)]
  simp

theorem mem_methods_iff {script : Text} {m : Method} :
    m ∈ methods script ↔ ∃ before run head after, Occurs script before run head after ∧
      m = methodOf before run ∧ m.name ∉ controlWords ∧
      ¬(leadOf run = [] ∧ IsDeclaring before) := by
  rw [mem_methods_iff_found, found_iff_occurs]
  constructor
  · rintro ⟨⟨before, run, head, after, hoccurs, hm, hd⟩, hword⟩
    exact ⟨before, run, head, after, hoccurs, hm, hword, hd⟩
  · rintro ⟨before, run, head, after, hoccurs, hm, hword, hd⟩
    exact ⟨⟨before, run, head, after, hoccurs, hm, hd⟩, hword⟩

/-- What it is for a list to hold the methods of a script. -/
structure ListsMethods (script : Text) (ms : List Method) : Prop where
  /-- They stand in text order, each of them once. -/
  ordered : ms.Pairwise fun a b => a.offset < b.offset
  /-- They are the methods of the runs with heads behind them, without the words of control flow
  and without the names that are being declared. -/
  members : ∀ m, m ∈ ms ↔ ∃ before run head after, Occurs script before run head after ∧
    m = methodOf before run ∧ m.name ∉ controlWords ∧ ¬(leadOf run = [] ∧ IsDeclaring before)
  /-- Each name is found at its offset. -/
  placed : ∀ m ∈ ms, ∃ rest, Text.dropBytes? m.offset script = some (m.name ++ rest)
  /-- No method stands where a function is being declared. -/
  undeclared : ∀ before keyword name head after,
    script = before ++ (keyword ++ (name ++ (head ++ after))) → IsKeyword keyword →
      endsInWord before = false → IsName name → IsHead head →
        ∀ m ∈ ms, m.offset ≠ Text.byteSize (before ++ keyword)

theorem placed_of_mem_methods {script : Text} {m : Method} (h : m ∈ methods script) :
    ∃ rest, Text.dropBytes? m.offset script = some (m.name ++ rest) := by
  obtain ⟨⟨p, name, head, after, rfl, -, rfl⟩, -⟩ := mem_methods_iff_found.1 h
  exact ⟨head ++ after, Text.dropBytes?_byteSize p _⟩

theorem ne_of_mem_methods {script before keyword rest : Text}
    (he : script = before ++ (keyword ++ rest)) (hk : IsKeyword keyword)
    (hword : endsInWord before = false) {m : Method} (h : m ∈ methods script) :
    m.offset ≠ Text.byteSize (before ++ keyword) := by
  obtain ⟨⟨p, name, head, after, hp, hm, rfl⟩, -⟩ := mem_methods_iff_found.1 h
  intro hsize
  have hsame : p ++ (name ++ (head ++ after)) = (before ++ keyword) ++ rest := by
    rw [← hp, he, List.append_assoc]
  have hplace : p = before ++ keyword := Text.append_inj_byteSize hsame hsize
  exact hm.undeclared ⟨before, keyword, hplace, hk, hword⟩

theorem listsMethods_methods (script : Text) : ListsMethods script (methods script) where
  ordered := pairwise_offset_methods script
  members _ := mem_methods_iff
  placed _ hm := placed_of_mem_methods hm
  undeclared _ _ _ _ _ he hk hword _ _ _ hm := ne_of_mem_methods he hk hword hm

end Script

namespace ComponentFacts

/-- **The methods of a component are those of its script.**  They are listed in text order, each with
the place of its name: one for each longest run of name characters that has a head behind it and holds
a character that can start a name, unless the name is a word of control flow or is being declared. -/
theorem listsMethods {t : Text} {block : ScriptBlock} (h : (ofText t).script = some block) :
    Script.ListsMethods block.text (ofText t).methods := by
  obtain ⟨b, hb, rfl⟩ := Option.map_eq_some_iff.1 h
  have hmethods : (ofText t).methods = Script.methods b.body := by
    show ((Component.block? "script" t).map fun b => Script.methods b.body).getD [] = _
    rw [hb]
    rfl
  rw [hmethods]
  exact Script.listsMethods_methods b.body

/-- A method whose name begins within a run, and a function. -/
def accentedScript : Text := "é$x (a) \x7b\x7d function go() \x7b\x7d".toList

def accented : Text := "<script>".toList ++ accentedScript ++ "</script>".toList

/-- The method is listed where its name begins, and the function is not. -/
theorem listsMethods_accented :
    (ofText accented).script = some ⟨accentedScript, false⟩ ∧
      Script.ListsMethods accentedScript (ofText accented).methods ∧
      ⟨"$x".toList, 2⟩ ∈ (ofText accented).methods ∧
      ∀ m ∈ (ofText accented).methods, m.offset ≠ 21 := by
  have hscript : (ofText accented).script = some ⟨accentedScript, false⟩ := by decide +kernel
  have hlists : Script.ListsMethods accentedScript (ofText accented).methods :=
    listsMethods hscript
  refine ⟨hscript, hlists, ?_, ?_⟩
  · have hhead : Script.IsHead " (a) \x7b".toList :=
      ⟨[' '], ['a'], [' '], List.all_eq_true.1 rfl, List.all_eq_true.1 rfl,
        List.all_eq_true.1 rfl, rfl⟩
    have hoccurs : Script.Occurs accentedScript [] "é$x".toList " (a) \x7b".toList
        "\x7d function go() \x7b\x7d".toList :=
      { text := rfl
        isHead := hhead
        continues := List.all_eq_true.1 (by decide +kernel)
        starts := ⟨'$', by decide, by decide⟩
        left := nofun
        right := by
          intro c hc
          cases hc
          decide }
    refine (hlists.members _).2 ⟨_, _, _, _, hoccurs, by decide, by decide, ?_⟩
    rintro ⟨hlead, -⟩
    exact absurd hlead (by decide)
  · have hkeyword : Script.IsKeyword "function ".toList :=
      ⟨[' '], by decide, List.all_eq_true.1 rfl, by decide⟩
    have hname : Script.IsName "go".toList :=
      ⟨'g', ['o'], rfl, by decide, List.all_eq_true.1 (by decide)⟩
    have hhead : Script.IsHead "() \x7b".toList :=
      ⟨[], [], [' '], List.forall_mem_nil _, List.forall_mem_nil _, List.all_eq_true.1 rfl, rfl⟩
    exact hlists.undeclared "é$x (a) \x7b\x7d ".toList _ _ _ "\x7d".toList rfl hkeyword
      (by decide) hname hhead

end ComponentFacts

end Outline
