import Outline.Proofs.SourceOrder

/-!
# Lines of calls

What asking for calls does to a summary.

* `isCallLine` — whether a line is written as that of a call;
* `Node.isCallLine_of_line?` — of the labelled kinds, calls and nothing else have such lines;
* `Language.Registered` — the library's languages, their grammars loaded or not;
* `Language.invocation_iff_callKind` — such a language collects as calls what is written so;
* `Summary.filter_ofSource_calls` — without its lines of calls, a summary with calls is the start
  of the summary without them, and all of it if the limit leaves room for every node.
-/

namespace Outline

/-! ### Lines that begin with a label -/

/-- Whether a line is written as that of a call. -/
def isCallLine (line : Text) : Bool := Text.startsWith "Call: ".toList line

theorem isCallLine_iff (line : Text) : isCallLine line = true ↔ "Call: ".toList <+: line := by
  rw [isCallLine, Text.startsWith, Option.isSome_iff_exists]
  constructor
  · rintro ⟨rest, hrest⟩
    exact ⟨rest, (Text.skip?_eq_some_iff.1 hrest).symm⟩
  · rintro ⟨rest, hrest⟩
    exact ⟨rest, Text.skip?_eq_some_iff.2 hrest.symm⟩

/-- A label without a colon is what stands before the first colon of its line. -/
theorem Node.takeWhile_labelled {label : String} (h : ':' ∉ label.toList) (t : Text) :
    (labelled label t).takeWhile (· ≠ ':') = label.toList := by
  have hall : ∀ c ∈ label.toList, decide (c ≠ ':') = true := by
    intro c hc
    rw [decide_eq_true_eq]
    rintro rfl
    exact h hc
  rw [labelled, List.takeWhile_append_of_pos hall, List.takeWhile_cons_of_neg (by simp),
    List.append_nil]

theorem Node.isCallLine_labelled {label : String} (h : ':' ∉ label.toList) (t : Text) :
    isCallLine (labelled label t) = true ↔ label = "Call" := by
  rw [isCallLine_iff]
  constructor
  · rintro ⟨rest, hrest⟩
    have hlabels : labelled "Call" rest = labelled label t := hrest
    have hlabel := congrArg (List.takeWhile (· ≠ ':')) hlabels
    rw [takeWhile_labelled (by decide), takeWhile_labelled h] at hlabel
    exact (String.toList_inj.1 hlabel).symm
  · rintro rfl
    exact ⟨t, rfl⟩

/-! ### Lines of nodes -/

namespace KindLabel

/-- No label holds a colon, and calls alone have theirs. -/
theorem label_of_mem_table : ∀ e ∈ table,
    ':' ∉ e.label.toList ∧ (e.label = "Call" ↔ e.rule = .invocation) := by
  decide

end KindLabel

namespace Node

/-- A line begins with the label of the node's kind, or with that of an element. -/
theorem labelled_of_line? {n : Node} {source line : Text} {signatures : Bool}
    (h : n.line? source signatures = some line) :
    ∃ label t, line = labelled label t ∧
      (label = labelOf n.kind ∨ label = "Element" ∧ ruleOf n.kind = .element) := by
  have hmap : ∀ {label : String} {o : Option Text}, o.map (labelled label) = some line →
      ∃ t, line = labelled label t := by
    intro label o ho
    obtain ⟨t, -, rfl⟩ := Option.map_eq_some_iff.1 ho
    exact ⟨t, rfl⟩
  unfold line? at h
  split at h
  case h_3 hrule =>
    rcases Option.or_eq_some_iff.1 h with h | ⟨-, h⟩
    · obtain ⟨t, ht⟩ := hmap h
      exact ⟨_, t, ht, Or.inl rfl⟩
    · obtain ⟨t, ht⟩ := hmap h
      exact ⟨_, t, ht, Or.inr ⟨rfl, hrule⟩⟩
  all_goals
    obtain ⟨t, ht⟩ := hmap h
    exact ⟨_, t, ht, Or.inl rfl⟩

/-- **Of the labelled kinds, calls and nothing else are written as calls.** -/
theorem isCallLine_of_line? {n : Node} {source line : Text} {signatures : Bool}
    (hkind : (KindLabel.find? n.kind).isSome = true)
    (h : n.line? source signatures = some line) :
    isCallLine line = true ↔ ruleOf n.kind = .invocation := by
  obtain ⟨e, he⟩ := Option.isSome_iff_exists.1 hkind
  have hlabel : labelOf n.kind = e.label := by rw [labelOf, he]; rfl
  have hrule : ruleOf n.kind = e.rule := by rw [ruleOf, he]; rfl
  obtain ⟨hcolon, hcall⟩ := KindLabel.label_of_mem_table e (List.mem_of_find?_eq_some he)
  obtain ⟨label, t, rfl, rfl | ⟨rfl, helement⟩⟩ := labelled_of_line? h
  · rw [hlabel, isCallLine_labelled hcolon, hcall, hrule]
  · rw [isCallLine_labelled (by decide), helement]
    decide

end Node

/-! ### Languages -/

namespace Language

/-- The languages of the library, each with its grammar or without. -/
def Registered (l : Language) : Prop := ∃ m ∈ standard, l = m ∨ l = m.withoutGrammar

/-- The library's languages collect labelled kinds only, and as calls what is written so. -/
theorem invocation_iff_callKind : ∀ l ∈ standard, ∀ k ∈ l.kinds ++ l.callKinds,
    (KindLabel.find? k).isSome = true ∧ (ruleOf k = .invocation ↔ k ∉ l.kinds) := by
  decide

theorem withoutGrammar_kinds (l : Language) :
    l.withoutGrammar.kinds = l.kinds ∧ l.withoutGrammar.callKinds = l.callKinds := by
  unfold withoutGrammar
  split <;> exact ⟨rfl, rfl⟩

theorem withoutGrammar_of_component {l : Language} (h : l.withoutGrammar.backend = .component) :
    l.withoutGrammar = l := by
  unfold withoutGrammar at h ⊢
  split at h
  · cases h
  · rfl

namespace Registered

theorem invocation_iff {l : Language} (hl : l.Registered) {k : String}
    (hk : k ∈ l.kinds ++ l.callKinds) :
    (KindLabel.find? k).isSome = true ∧ (ruleOf k = .invocation ↔ k ∉ l.kinds) := by
  obtain ⟨m, hm, rfl | rfl⟩ := hl
  · exact invocation_iff_callKind l hm k hk
  · obtain ⟨hkinds, hcalls⟩ := m.withoutGrammar_kinds
    rw [hkinds, hcalls] at hk
    rw [hkinds]
    exact invocation_iff_callKind m hm k hk

theorem mem_standard {l : Language} (hl : l.Registered) (hc : l.backend = .component) :
    l ∈ standard := by
  obtain ⟨m, hm, rfl | rfl⟩ := hl
  · exact hm
  · rw [withoutGrammar_of_component hc]
    exact hm

end Registered

end Language

namespace Summary

/-! ### Grammars -/

theorem map_snd_filterMap_lineAt (source : Text) (signatures : Bool) (nodes : List Node) :
    (nodes.filterMap (lineAt source signatures)).map (·.2) =
      nodes.filterMap fun n => n.line? source signatures := by
  rw [List.map_filterMap]
  congr 1
  funext n
  simp [lineAt, Function.comp_def]

/-- The lines of a language with a grammar are those of the first nodes of the kinds. -/
theorem ofSource_of_grammar {l : Language} {source : Text} (hb : source.blank = false)
    (hl : l.backend = .grammar true) (tree : Option Node) (o : SummaryOptions) :
    ofSource l source tree o =
      ((treeCandidates tree (l.kindsOfInterest o.includeCalls)).take o.maxLines).filterMap
        fun n => n.line? source o.signatures := by
  rw [← map_snd_filterMap_lineAt, ← treeLines_eq, ofSource, hb, hl]
  rfl

/-- The nodes of some of the kinds. -/
theorem treeCandidates_filter (tree : Option Node) (kinds more : List String) :
    (treeCandidates tree (kinds ++ more)).filter (Node.isOf kinds) = treeCandidates tree kinds := by
  cases tree with
  | none => rfl
  | some root =>
    show (root.descendants.filter _).filter _ = root.descendants.filter _
    rw [List.filter_filter]
    apply List.filter_congr
    intro n _
    simp only [Node.isOf, List.contains_append]
    cases n.named <;> cases kinds.contains n.kind <;> simp

theorem kind_of_mem_treeCandidates {tree : Option Node} {kinds : List String} {n : Node}
    (h : n ∈ treeCandidates tree kinds) : n.kind ∈ kinds := by
  cases tree with
  | none => cases h
  | some root =>
    have hof := (List.mem_filter.1 h).2
    exact List.contains_iff_mem.1 (Bool.and_elim_right hof)

/-- Choosing among the first elements gives the first of the chosen ones. -/
theorem filter_take_prefix_take {α : Type} (p : α → Bool) (xs : List α) (m : Nat) :
    (xs.take m).filter p <+: (xs.filter p).take m := by
  rw [List.prefix_take_iff]
  exact ⟨(List.take_prefix m xs).filter p,
    (List.length_filter_le _ _).trans (List.length_take_le m xs)⟩

/-- Results chosen by a test are those of the elements chosen by the same test. -/
theorem filter_filterMap_of_iff {α β : Type} {f : α → Option β} {p : α → Bool} {q : β → Bool}
    {xs : List α} (h : ∀ a ∈ xs, ∀ b, f a = some b → q b = p a) :
    (xs.filterMap f).filter q = (xs.filter p).filterMap f := by
  induction xs with
  | nil => rfl
  | cons a xs ih =>
    have ih := ih fun c hc => h c (List.mem_cons_of_mem a hc)
    rw [List.filter_cons]
    cases hf : f a with
    | none =>
      rw [List.filterMap_cons_none hf, ih]
      split
      · rw [List.filterMap_cons_none hf]
      · rfl
    | some b =>
      rw [List.filterMap_cons_some hf, List.filter_cons, h a List.mem_cons_self b hf, ih]
      split
      · rw [List.filterMap_cons_some hf]
      · rfl

/-! ### Components and stylesheets -/

theorem isCallLine_of_mem_facts {t line : Text} (h : line ∈ (ComponentFacts.ofText t).lines) :
    isCallLine line = false := by
  rcases List.mem_append.1 h with h | h
  · rcases List.mem_append.1 h with h | h
    · rcases List.mem_append.1 h with h | h
      · obtain ⟨n, -, rfl⟩ := Option.map_eq_some_iff.1 (Option.mem_toList.1 h)
        rfl
      · obtain ⟨name, -, rfl⟩ := Option.map_eq_some_iff.1 (Option.mem_toList.1 h)
        rfl
    · obtain ⟨entry, hentry, rfl⟩ := List.mem_map.1 h
      obtain ⟨m, -, rfl⟩ := List.mem_map.1 hentry
      rfl
  · obtain ⟨n, -, rfl⟩ := Option.map_eq_some_iff.1 (Option.mem_toList.1 h)
    rfl

theorem kind_of_mem_scriptCandidates {l : Language} {source : Text} {tree : Option Node}
    {n : Node} (h : n ∈ scriptCandidates l source tree) :
    ∃ embedded, l.script = some embedded ∧ n.kind ∈ embedded.kinds := by
  rw [scriptCandidates] at h
  split at h
  · rename_i embedded hread
    obtain ⟨script, -, hread⟩ := Option.bind_eq_some_iff.1 hread
    exact ⟨embedded, (Option.filter_eq_some_iff.1 hread).1, kind_of_mem_treeCandidates h⟩
  · cases h

/-- A component collects no calls from its script. -/
theorem isCallLine_of_mem_scriptEntries {l : Language} (hl : l ∈ Language.standard)
    (hc : l.backend = .component) {source : Text} {tree : Option Node} {o : SummaryOptions}
    {e : Nat × Text} (h : e ∈ scriptEntries l source tree o) : isCallLine e.2 = false := by
  obtain ⟨n, hn, he⟩ := List.mem_filterMap.1 h
  obtain ⟨line, hline, rfl⟩ := Option.map_eq_some_iff.1 he
  obtain ⟨embedded, hscript, hkind⟩ := kind_of_mem_scriptCandidates (List.mem_of_mem_take hn)
  rw [script_of_mem_standard hl hc] at hscript
  cases hscript
  have hrule : ∀ k ∈ ["function_declaration", "class_declaration"],
      (KindLabel.find? k).isSome = true ∧ ruleOf k ≠ .invocation := by decide
  obtain ⟨hlabelled, hrule⟩ := hrule _ hkind
  rw [← Bool.not_eq_true, Node.isCallLine_of_line? hlabelled hline]
  exact hrule

theorem isCallLine_of_mem_componentLines {l : Language} (hl : l ∈ Language.standard)
    (hc : l.backend = .component) {source line : Text} {tree : Option Node} {o : SummaryOptions}
    (h : line ∈ componentLines l source tree o) : isCallLine line = false := by
  rw [componentLines_eq] at h
  have hfact : ∀ line ∈ (ComponentFacts.ofText source).lines, isCallLine line = false :=
    fun line hline => isCallLine_of_mem_facts hline
  simp only [ComponentFacts.lines, List.mem_append] at hfact
  rcases List.mem_append.1 (List.mem_of_mem_take h) with h | h
  · rcases List.mem_append.1 h with h | h
    · exact hfact line (Or.inl (Or.inl h))
    · obtain ⟨e, he, rfl⟩ := List.mem_map.1 h
      rcases List.mem_append.1 (List.mem_mergeSort.1 he) with he | he
      · exact hfact e.2 (Or.inl (Or.inr (List.mem_map_of_mem he)))
      · exact isCallLine_of_mem_scriptEntries hl hc he
  · exact hfact line (Or.inr h)

theorem isCallLine_of_mem_stylesheet {t line : Text} {limit : Nat}
    (h : line ∈ Stylesheet.lines t limit) : isCallLine line = false := by
  obtain ⟨r, -, rfl⟩ := List.mem_map.1 h
  rfl

/-! ### Asking for calls -/

/-- Where no grammar is at work, nothing is written as a call, asked for or not. -/
theorem isCallLine_of_no_grammar {l : Language} (hl : l.Registered) (hg : l.backend ≠ .grammar true)
    {source line : Text} {tree : Option Node} {o : SummaryOptions}
    (h : line ∈ ofSource l source tree o) : isCallLine line = false := by
  unfold ofSource at h
  split at h
  · cases h
  · split at h
    · rw [List.mem_singleton.1 h]
      rfl
    · rename_i hgrammar
      exact absurd hgrammar hg
    · exact isCallLine_of_mem_stylesheet h
    · rename_i hc
      exact isCallLine_of_mem_componentLines (hl.mem_standard hc) hc h

theorem ofSource_calls_of_no_grammar {l : Language} (hg : l.backend ≠ .grammar true) (source : Text)
    (tree : Option Node) (o : SummaryOptions) (calls : Bool) :
    ofSource l source tree { o with includeCalls := calls } = ofSource l source tree o := by
  unfold ofSource
  split
  · rfl
  · split
    · rfl
    · rename_i hgrammar
      exact absurd hgrammar hg
    · rfl
    · rfl

/-- Without the lines of calls, what is left are the lines of the nodes of other kinds. -/
theorem filter_lines_of_registered {l : Language} (hl : l.Registered) (source : Text)
    (tree : Option Node) (m : Nat) (signatures : Bool) :
    (((treeCandidates tree (l.kinds ++ l.callKinds)).take m).filterMap
        fun n => n.line? source signatures).filter (!isCallLine ·) =
      (((treeCandidates tree (l.kinds ++ l.callKinds)).take m).filter
        (Node.isOf l.kinds)).filterMap fun n => n.line? source signatures := by
  apply filter_filterMap_of_iff
  intro n hn line hline
  obtain ⟨hlabelled, hrule⟩ :=
    hl.invocation_iff (kind_of_mem_treeCandidates (List.mem_of_mem_take hn))
  rw [Bool.eq_iff_iff, Bool.not_eq_true', ← Bool.not_eq_true,
    Node.isCallLine_of_line? hlabelled hline, hrule, not_not, Node.isOf, List.contains_iff_mem]

/-- **Asking for calls only inserts their lines.**  Of a summary with calls, the other lines are
the first of the summary without them.  They are all of it where no grammar is at work, and
wherever the limit leaves room for all nodes of the kinds and of the kinds of calls. -/
theorem filter_ofSource_calls {l : Language} (hl : l.Registered) (source : Text)
    (tree : Option Node) (o : SummaryOptions) :
    let plain := ofSource l source tree { o with includeCalls := false }
    let called := ofSource l source tree { o with includeCalls := true }
    called.filter (!isCallLine ·) <+: plain ∧
      (l.backend ≠ .grammar true ∨
          (treeCandidates tree (l.kinds ++ l.callKinds)).length ≤ o.maxLines →
        called.filter (!isCallLine ·) = plain) := by
  intro plain called
  by_cases hg : l.backend = .grammar true
  · cases hb : source.blank with
    | true =>
      have hplain : plain = [] := ofSource_of_blank l tree _ hb
      have hcalled : called = [] := ofSource_of_blank l tree _ hb
      rw [hplain, hcalled]
      exact ⟨List.prefix_refl [], fun _ => rfl⟩
    | false =>
      have hplain : plain = ((treeCandidates tree l.kinds).take o.maxLines).filterMap
          fun n => n.line? source o.signatures := ofSource_of_grammar hb hg tree _
      have hcalled : called = ((treeCandidates tree (l.kinds ++ l.callKinds)).take
          o.maxLines).filterMap fun n => n.line? source o.signatures :=
        ofSource_of_grammar hb hg tree _
      have hkinds := treeCandidates_filter tree l.kinds l.callKinds
      rw [hplain, hcalled, filter_lines_of_registered hl, ← hkinds]
      refine ⟨(filter_take_prefix_take _ _ _).filterMap _, ?_⟩
      rintro (hnot | hroom)
      · exact absurd hg hnot
      · rw [List.take_of_length_le hroom,
          List.take_of_length_le ((List.length_filter_le _ _).trans hroom)]
  · have hsame : called = plain :=
      (ofSource_calls_of_no_grammar hg source tree o true).trans
        (ofSource_calls_of_no_grammar hg source tree o false).symm
    have hall : called.filter (!isCallLine ·) = plain := by
      rw [hsame, List.filter_eq_self]
      intro line hline
      rw [isCallLine_of_no_grammar hl hg hline]
      rfl
    rw [hall]
    exact ⟨List.prefix_refl plain, fun _ => rfl⟩

/-- A script that calls a function and defines one. -/
def callingScript : Text := "f()\ndef g(): pass".toList

def callingTree : Node :=
  ⟨0, "module", none, true, 0, 17,
    [⟨1, "call", none, true, 0, 3,
      [⟨2, "identifier", some "function", true, 0, 1, []⟩]⟩,
     ⟨3, "function_definition", none, true, 4, 17,
      [⟨4, "identifier", some "name", true, 8, 9, []⟩]⟩]⟩

/-- With room for one node the call takes the place of the definition, with room for two it stands
beside it. -/
theorem filter_ofSource_calls_script :
    ∃ l, l.Registered ∧ l.backend = .grammar true ∧
      (treeCandidates (some callingTree) (l.kinds ++ l.callKinds)).length ≤ 2 ∧
      (ofSource l callingScript (some callingTree) { maxLines := 1, includeCalls := true }).filter
          (!isCallLine ·) <+:
        ofSource l callingScript (some callingTree) { maxLines := 1, includeCalls := false } ∧
      (ofSource l callingScript (some callingTree) { maxLines := 2, includeCalls := true }).filter
          (!isCallLine ·) =
        ofSource l callingScript (some callingTree) { maxLines := 2, includeCalls := false } ∧
      "Call: f()".toList ∈
        ofSource l callingScript (some callingTree) { maxLines := 2, includeCalls := true } := by
  have hl : (Language.standard[3]).Registered := ⟨_, List.getElem_mem _, Or.inl rfl⟩
  have hroom : (treeCandidates (some callingTree)
      (Language.standard[3].kinds ++ Language.standard[3].callKinds)).length ≤ 2 := by decide
  refine ⟨Language.standard[3], hl, rfl, hroom, ?_, ?_, ?_⟩
  · exact (filter_ofSource_calls hl callingScript (some callingTree) { maxLines := 1 }).1
  · exact (filter_ofSource_calls hl callingScript (some callingTree) { maxLines := 2 }).2
      (Or.inr hroom)
  · rw [ofSource_of_grammar (by decide) rfl]
    decide

end Summary

end Outline
