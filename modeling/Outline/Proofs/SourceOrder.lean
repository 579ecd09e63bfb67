import Mathlib
import Outline.Summary
import Outline.Proofs.ScriptMethods
import Outline.Proofs.StableMerge
import Outline.Proofs.StyleBlocks
import Outline.Proofs.Walks

/-!
# Summaries follow their source

The order of the lines of a summary, and what raising its limit does.

* `Summary.lineAt` — the line of a node with its start byte;
* `Summary.scriptCandidates` — the nodes that the tree of a component's script offers;
* `Summary.componentLines_eq` — the lines of a component, from its facts and these nodes;
* `Summary.WrittenFrom` — lines that are renderings of nodes at increasing places of a pre-order;
* `Summary.MergedOrder` — entries merged from methods and nodes by offset;
* `Summary.ofSource_in_source_order` — the lines of every language follow the source;
* `Summary.OrderedScript` — a script whose nodes are in order and all have lines;
* `Summary.ofSource_prefix_ofSource` — under a greater limit, a summary only grows at its end.
-/

namespace Outline

/-! ### Blank components -/

theorem Component.opened?_of_blank (tag : String) {t : Text} (h : t.blank = true) :
    Component.opened? tag t = none := by
  rw [Component.opened?]
  cases hcut : Text.cut? (Component.openMarker tag) t with
  | none => rfl
  | some p =>
    have hmem : '<' ∈ t := by
      rw [Text.eq_of_cut?_eq_some hcut, Component.openMarker]
      simp
    have hblank := List.all_eq_true.1 h '<' hmem
    exact absurd hblank (by decide)

theorem ComponentFacts.ofText_of_blank {t : Text} (h : t.blank = true) :
    ComponentFacts.ofText t = ⟨none, none, [], none, none⟩ := by
  have hblock : ∀ tag, Component.block? tag t = none := by
    intro tag
    rw [Component.block?, Component.opened?_of_blank tag h]
    rfl
  have hwidest : Component.widestBlock? "template" t = none := by
    rw [Component.widestBlock?, Component.opened?_of_blank "template" h]
    rfl
  simp only [ComponentFacts.ofText, hblock, hwidest, Option.map_none, Option.getD_none]

namespace Summary

/-! ### Lines from a tree -/

/-- The line of a node, with the node's start byte. -/
def lineAt (source : Text) (signatures : Bool) (n : Node) : Option (Nat × Text) :=
  (n.line? source signatures).map fun line => (n.start, line)

def treeNodes (tree : Option Node) : List Node := (tree.map Node.preorder).getD []

/-- The nodes of the kinds that a tree, if there is one, offers. -/
def treeCandidates (tree : Option Node) (kinds : List String) : List Node :=
  (tree.map fun root => root.candidates kinds).getD []

theorem treeCandidates_sublist (tree : Option Node) (kinds : List String) :
    (treeCandidates tree kinds).Sublist (treeNodes tree) := by
  cases tree with
  | none => exact List.Sublist.refl []
  | some root =>
    show (root.candidates kinds).Sublist (root :: root.descendants)
    exact List.filter_sublist.trans (List.sublist_cons_self root _)

theorem treeLines_eq (tree : Option Node) (source : Text) (kinds : List String)
    (o : SummaryOptions) :
    treeLines tree source kinds o =
      ((treeCandidates tree kinds).take o.maxLines).filterMap (lineAt source o.signatures) := by
  cases tree with
  | none => rw [treeLines, treeCandidates, Option.map_none, Option.getD_none, List.take_nil]; rfl
  | some root =>
    rw [treeLines, Node.collect_eq]
    rfl

/-! ### Lines of a component -/

/-- How the tree of a component's script block is read.  A blank block has none, nor has one
whose language has no grammar. -/
def scriptReading? (l : Language) (script : ScriptBlock) : Option EmbeddedScript :=
  l.script.filter fun embedded =>
    (Registry.standard.lookup? (if script.typed then embedded.typed else embedded.plain)).any
      (·.parses) && !script.text.blank

/-- The nodes that the tree of a component's script offers. -/
def scriptCandidates (l : Language) (source : Text) (tree : Option Node) : List Node :=
  match (ComponentFacts.ofText source).script.bind (scriptReading? l) with
  | some embedded => treeCandidates tree embedded.kinds
  | none => []

def scriptText (source : Text) : Text :=
  ((ComponentFacts.ofText source).script.map (·.text)).getD []

/-- The lines of the nodes of a component's script. -/
def scriptEntries (l : Language) (source : Text) (tree : Option Node) (o : SummaryOptions) :
    List (Nat × Text) :=
  ((scriptCandidates l source tree).take o.maxLines).filterMap
    (lineAt (scriptText source) o.signatures)

theorem scriptLines_eq (l : Language) (script : ScriptBlock) (tree : Option Node)
    (o : SummaryOptions) :
    scriptLines l script tree o =
      match scriptReading? l script with
      | some embedded => treeLines tree script.text embedded.kinds o
      | none => [] := by
  unfold scriptLines scriptReading?
  cases l.script with
  | none => rfl
  | some embedded =>
    simp only [Option.filter_some]
    cases Registry.standard.lookup? (if script.typed then embedded.typed else embedded.plain) with
    | none => rfl
    | some scriptLanguage =>
      simp only [Option.any_some]
      split <;> rfl

/-- **The lines of a component**: what its facts say, with the methods and the nodes of the script
merged between the two. -/
theorem componentLines_eq (l : Language) (source : Text) (tree : Option Node)
    (o : SummaryOptions) :
    componentLines l source tree o =
      ((ComponentFacts.ofText source).header ++
        (((ComponentFacts.ofText source).methodLines ++ scriptEntries l source tree o).mergeSort
          byNumber).map (·.2) ++ (ComponentFacts.ofText source).footer).take o.maxLines := by
  have hnodes : ((ComponentFacts.ofText source).script.map fun script =>
      scriptLines l script tree o).getD [] = scriptEntries l source tree o := by
    rw [scriptEntries, scriptCandidates, scriptText]
    cases (ComponentFacts.ofText source).script with
    | none => simp
    | some script =>
      rw [Option.map_some, Option.getD_some, scriptLines_eq, Option.bind_some]
      cases scriptReading? l script with
      | none => simp
      | some embedded => exact treeLines_eq tree script.text embedded.kinds o
  rw [componentLines, hnodes]
  rfl

/-! ### The order of the lines -/

/-- `entries` are the renderings of `chosen`, nodes of a pre-order with their places in it. -/
structure WrittenFrom (nodes : List Node) (source : Text) (signatures : Bool)
    (chosen : List (Node × Nat)) (entries : List (Nat × Text)) : Prop where
  /-- Each chosen node is the one at its place. -/
  inTree : chosen.Sublist nodes.zipIdx
  /-- The places increase, so that no node is taken twice. -/
  places : (chosen.map (·.2)).Pairwise (· < ·)
  /-- Each entry is the line of its own node, with the start byte of that node. -/
  written : chosen.map (fun c => lineAt source signatures c.1) = entries.map some
  /-- Start bytes that never decrease in the tree never decrease in the summary. -/
  ascending : (nodes.Pairwise fun a b => a.start ≤ b.start) → Ascending entries

theorem start_of_lineAt {source : Text} {signatures : Bool} {n : Node} {e : Nat × Text}
    (h : lineAt source signatures n = some e) : e.1 = n.start := by
  obtain ⟨line, -, rfl⟩ := Option.map_eq_some_iff.1 h
  rfl

theorem ascending_filterMap_lineAt {nodes : List Node} (source : Text) (signatures : Bool)
    (h : nodes.Pairwise fun a b => a.start ≤ b.start) :
    Ascending (nodes.filterMap (lineAt source signatures)) := by
  apply h.filterMap
  intro a b hab x hx y hy
  rw [start_of_lineAt hx, start_of_lineAt hy]
  exact hab

/-- A list without the elements that a function leaves out, through the function. -/
theorem map_filter_isSome {α β : Type} (f : α → Option β) (l : List α) :
    (l.filter fun a => (f a).isSome).map f = (l.filterMap f).map some := by
  induction l with
  | nil => rfl
  | cons a l ih =>
    cases ha : f a with
    | none => rw [List.filter_cons, ha, List.filterMap_cons_none ha]; exact ih
    | some b =>
      rw [List.filter_cons, ha, List.filterMap_cons_some ha, List.map_cons, ← ih]
      simp [ha]

/-- Nodes in pre-order are written in this order, each of them once. -/
theorem writtenFrom_of_sublist {nodes taken : List Node} (source : Text) (signatures : Bool)
    (h : taken.Sublist nodes) :
    ∃ chosen, WrittenFrom nodes source signatures chosen
        (taken.filterMap (lineAt source signatures)) ∧
      chosen.map (·.1) = taken.filter fun n => (lineAt source signatures n).isSome := by
  have hkept : (taken.filter fun n => (lineAt source signatures n).isSome).Sublist
      (nodes.zipIdx.map (·.1)) := by
    rw [List.zipIdx_map_fst]
    exact List.filter_sublist.trans h
  obtain ⟨chosen, hchosen, hmap⟩ := List.sublist_map_iff.1 hkept
  refine ⟨chosen, ⟨hchosen, ?_, ?_, ?_⟩, hmap.symm⟩
  · have hplaces : (nodes.zipIdx.map (·.2)).Pairwise (· < ·) := by
      rw [List.zipIdx_map_snd]
      exact List.pairwise_lt_range'
    exact hplaces.sublist (hchosen.map _)
  · rw [← map_filter_isSome, hmap, List.map_map]
    rfl
  · intro hnodes
    exact ascending_filterMap_lineAt source signatures (hnodes.sublist h)

/-- The line of a method, with the offset of its name in the script. -/
def methodEntry (m : Method) : Nat × Text := (m.offset, "Vue Method: ".toList ++ m.name)

/-- `merged` holds the lines of the methods and the entries of the nodes, and follows their
offsets. -/
structure MergedOrder (methods : List Method) (nodes merged : List (Nat × Text)) : Prop where
  /-- The offsets never decrease. -/
  ascending : Ascending merged
  /-- Nothing is lost and nothing comes twice. -/
  perm : merged.Perm (methods.map methodEntry ++ nodes)
  /-- At one offset the methods come first, and both keep their order. -/
  stable : ∀ k, merged.filter (·.1 == k) =
    (methods.map methodEntry).filter (·.1 == k) ++ nodes.filter (·.1 == k)
  /-- The methods come in the order of the text, no two at one offset. -/
  methods : methods.Pairwise fun a b => a.offset < b.offset

theorem pairwise_methods (t : Text) :
    (ComponentFacts.ofText t).methods.Pairwise fun a b => a.offset < b.offset := by
  show (((Component.block? "script" t).map fun b => Script.methods b.body).getD []).Pairwise
    fun a b => a.offset < b.offset
  cases Component.block? "script" t with
  | none => exact List.Pairwise.nil
  | some b => exact Script.pairwise_offset_methods b.body

theorem methodLines_eq (f : ComponentFacts) : f.methodLines = f.methods.map methodEntry := rfl

theorem mergedOrder_mergeSort (t : Text) (nodes : List (Nat × Text)) :
    MergedOrder (ComponentFacts.ofText t).methods nodes
      (((ComponentFacts.ofText t).methodLines ++ nodes).mergeSort byNumber) where
  ascending := ascending_mergeSort _
  perm := by rw [← methodLines_eq]; exact List.mergeSort_perm _ _
  stable k := by rw [filter_mergeSort, List.filter_append, methodLines_eq]
  methods := pairwise_methods t

theorem scriptCandidates_sublist (l : Language) (source : Text) (tree : Option Node) :
    (scriptCandidates l source tree).Sublist (treeNodes tree) := by
  rw [scriptCandidates]
  split
  · exact treeCandidates_sublist tree _
  · exact List.nil_sublist _

theorem exists_component : ∃ l ∈ Language.standard, l.backend = .component :=
  ⟨_, List.getLast_mem (List.cons_ne_nil _ _), rfl⟩

/-- The only component among the library's languages. -/
theorem script_of_mem_standard {l : Language} (hl : l ∈ Language.standard)
    (hc : l.backend = .component) :
    l.script =
      some ⟨".js".toList, ".ts".toList, ["function_declaration", "class_declaration"]⟩ := by
  have hall : ∀ m ∈ Language.standard, m.backend = .component → m.script =
      some ⟨".js".toList, ".ts".toList, ["function_declaration", "class_declaration"]⟩ := by
    simp [Language.standard, Language.ofGrammar, Language.ofScanner]
  exact hall l hl hc

/-- Of the library's languages, the components collect functions and classes from every script
block that is not blank. -/
theorem scriptCandidates_of_mem_standard {l : Language} (hl : l ∈ Language.standard)
    (hc : l.backend = .component) (source : Text) (tree : Option Node) (script : ScriptBlock)
    (hs : (ComponentFacts.ofText source).script = some script) (hb : script.text.blank = false) :
    scriptCandidates l source tree =
      treeCandidates tree ["function_declaration", "class_declaration"] := by
  have hplain : (Registry.standard.lookup? ".js".toList).any (·.parses) = true := by cbv
  have htyped : (Registry.standard.lookup? ".ts".toList).any (·.parses) = true := by cbv
  have hread : scriptReading? l script =
      some ⟨".js".toList, ".ts".toList, ["function_declaration", "class_declaration"]⟩ := by
    rw [scriptReading?, script_of_mem_standard hl hc, Option.filter_some, hb]
    cases script.typed with
    | true => simp only [if_true, htyped]; rfl
    | false => simp only [Bool.false_eq_true, if_false, hplain]; rfl
  rw [scriptCandidates, hs, Option.bind_some, hread]

/-- The first of the blocks that become rules. -/
def shownBlocks (t : Text) (limit : Nat) : List (Text × Text) :=
  ((Stylesheet.blocks (Stylesheet.withoutComments t)).filter fun b =>
    (Stylesheet.ruleOfBlock? b.1 b.2).isSome).take limit

/-- Each line of a stylesheet is that of its own block, and these stand in the text in order. -/
theorem stylesheet_lines_eq (t : Text) (limit : Nat) :
    Stylesheet.Stand (shownBlocks t limit) (Stylesheet.withoutComments t) ∧
      (Stylesheet.lines t limit).map some =
        (shownBlocks t limit).map fun b =>
          (Stylesheet.ruleOfBlock? b.1 b.2).map Stylesheet.ruleLine := by
  constructor
  · apply (Stylesheet.stand_blocks _).sublist
    exact (List.take_sublist _ _).trans List.filter_sublist
  · have hrules := congrArg (fun rs => (rs.take limit).map (Option.map Stylesheet.ruleLine))
      (map_filter_isSome (fun b : Text × Text => Stylesheet.ruleOfBlock? b.1 b.2)
        (Stylesheet.blocks (Stylesheet.withoutComments t)))
    simp only [← List.map_take, List.map_map] at hrules
    rw [Stylesheet.lines, List.map_map, shownBlocks]
    exact hrules.symm

theorem shownBlocks_of_blank {t : Text} (limit : Nat) (h : t.blank = true) :
    shownBlocks t limit = [] := by
  have hstand := (stylesheet_lines_eq t limit).1
  generalize shownBlocks t limit = shown at hstand
  generalize hw : Stylesheet.withoutComments t = w at hstand
  cases hstand with
  | nil => rfl
  | cons gap hrest =>
    have hmem : '{' ∈ t := by
      apply (Stylesheet.withoutComments_sublist t).mem
      rw [hw]
      simp
    have hblank := List.all_eq_true.1 h '{' hmem
    exact absurd hblank (by decide)

/-- **Summaries follow their source.**  The lines of a grammar's language are those of nodes at
increasing places of the tree's pre-order.  The lines of a stylesheet are those of blocks that
stand one behind the other.  The lines of a component begin with its header and end with its
footer; between them stand its methods and nodes by their offsets. -/
theorem ofSource_in_source_order (l : Language) (source : Text) (tree : Option Node)
    (o : SummaryOptions) :
    match l.backend with
    | .grammar true => ∃ chosen entries,
        WrittenFrom (treeNodes tree) source o.signatures chosen entries ∧
        ofSource l source tree o = entries.map (·.2) ∧
        (source.blank = false → chosen.map (·.1) =
          ((treeCandidates tree (l.kindsOfInterest o.includeCalls)).take o.maxLines).filter
            fun n => (lineAt source o.signatures n).isSome)
    | .grammar false => ofSource l source tree o = if source.blank then [] else [notice l]
    | .stylesheet =>
        Stylesheet.Stand (shownBlocks source o.maxLines) (Stylesheet.withoutComments source) ∧
        (ofSource l source tree o).map some = (shownBlocks source o.maxLines).map fun b =>
          (Stylesheet.ruleOfBlock? b.1 b.2).map Stylesheet.ruleLine
    | .component => ∃ chosen merged,
        WrittenFrom (treeNodes tree) (scriptText source) o.signatures chosen
          (scriptEntries l source tree o) ∧
        MergedOrder (ComponentFacts.ofText source).methods (scriptEntries l source tree o)
          merged ∧
        ofSource l source tree o = ((ComponentFacts.ofText source).header ++ merged.map (·.2) ++
          (ComponentFacts.ofText source).footer).take o.maxLines ∧
        (l ∈ Language.standard → ∀ script, (ComponentFacts.ofText source).script = some script →
          script.text.blank = false → scriptCandidates l source tree =
            treeCandidates tree ["function_declaration", "class_declaration"]) := by
  split
  · rename_i hl
    cases hb : source.blank with
    | true =>
      refine ⟨[], [], ⟨List.nil_sublist _, List.Pairwise.nil, rfl, fun _ => List.Pairwise.nil⟩,
        ofSource_of_blank l tree o hb, ?_⟩
      intro h
      cases h
    | false =>
      have hsub : ((treeCandidates tree (l.kindsOfInterest o.includeCalls)).take
          o.maxLines).Sublist (treeNodes tree) :=
        (List.take_sublist _ _).trans (treeCandidates_sublist tree _)
      obtain ⟨chosen, hchosen, hmap⟩ := writtenFrom_of_sublist source o.signatures hsub
      refine ⟨chosen, _, hchosen, ?_, fun _ => hmap⟩
      rw [ofSource, hb, hl, ← treeLines_eq]
      rfl
  · rename_i hl
    rw [ofSource, hl]
  · rename_i hl
    refine ⟨(stylesheet_lines_eq source o.maxLines).1, ?_⟩
    cases hb : source.blank with
    | true => rw [ofSource_of_blank l tree o hb, shownBlocks_of_blank o.maxLines hb]; rfl
    | false =>
      rw [ofSource, hb, hl]
      exact (stylesheet_lines_eq source o.maxLines).2
  · rename_i hl
    have hsub : ((scriptCandidates l source tree).take o.maxLines).Sublist (treeNodes tree) :=
      (List.take_sublist _ _).trans (scriptCandidates_sublist l source tree)
    obtain ⟨chosen, hchosen, -⟩ := writtenFrom_of_sublist (scriptText source) o.signatures hsub
    refine ⟨chosen, _, hchosen, mergedOrder_mergeSort source _, ?_, ?_⟩
    · cases hb : source.blank with
      | true =>
        have hnone : scriptEntries l source tree o = [] := by
          rw [scriptEntries, scriptCandidates, ComponentFacts.ofText_of_blank hb]
          simp
        rw [ofSource_of_blank l tree o hb, hnone, ComponentFacts.ofText_of_blank hb]
        simp [ComponentFacts.header, ComponentFacts.methodLines, ComponentFacts.footer]
      | false =>
        rw [ofSource, hb, hl, ← componentLines_eq]
        rfl
    · intro hmem script hs hblank
      exact scriptCandidates_of_mem_standard hmem hl source tree script hs hblank

/-- A component whose script holds a method, a function and a class. -/
def smallComponent : Text :=
  "<script>m()\x7b\x7d\nfunction f()\x7b\x7d\nclass C\x7b\x7d</script>".toList

def smallScript : Text := "m()\x7b\x7d\nfunction f()\x7b\x7d\nclass C\x7b\x7d".toList

/-- A component with blocks of all three kinds, the last first. -/
def framedComponent : Text :=
  "<style>.a\x7bb:c\x7d</style><template><p></p></template>".toList ++ smallComponent

/-- A tree of the small script that has its class before its function, and the function at the offset
of the method. -/
def tangledTree : Node :=
  ⟨0, "program", none, true, 0, 30,
    [⟨1, "class_declaration", none, true, 21, 30,
      [⟨2, "identifier", some "name", true, 27, 28, []⟩]⟩,
     ⟨3, "function_declaration", none, true, 0, 20,
      [⟨4, "identifier", some "name", true, 15, 16, []⟩]⟩]⟩

theorem ofText_framed : ComponentFacts.ofText framedComponent =
    ⟨some 1, some Component.anonymous, [⟨"m".toList, 0⟩], some 1, some ⟨smallScript, false⟩⟩ := by
  decide +kernel

theorem scriptEntries_framed {l : Language} (hl : l ∈ Language.standard)
    (hc : l.backend = .component) : scriptEntries l framedComponent (some tangledTree) {} =
      [(21, "Class: C".toList), (0, "Function: f".toList)] := by
  have hs : (ComponentFacts.ofText framedComponent).script = some ⟨smallScript, false⟩ := by
    rw [ofText_framed]
  have ht : scriptText framedComponent = smallScript := by
    rw [scriptText, hs]
    rfl
  rw [scriptEntries, ht, scriptCandidates_of_mem_standard hl hc framedComponent _ _ hs (by decide)]
  decide

/-- The method stands before the function at its offset, and both before the class. -/
theorem ofSource_in_source_order_framed :
    ∃ l ∈ Language.standard, l.backend = .component ∧
      ofSource l framedComponent (some tangledTree) {} =
        ["Vue Template: 1 element", "Vue Component: Anonymous", "Vue Method: m", "Function: f",
          "Class: C", "Vue Styles: 1 rule"].map String.toList := by
  obtain ⟨l, hmem, hc⟩ := exists_component
  have h := ofSource_in_source_order l framedComponent (some tangledTree) {}
  rw [hc] at h
  obtain ⟨chosen, merged, -, horder, hlines, -⟩ := h
  rw [scriptEntries_framed hmem hc, ofText_framed] at horder
  have hmerged : merged = [(0, "Vue Method: m".toList), (0, "Function: f".toList),
      (21, "Class: C".toList)] := by
    apply eq_of_ascending horder.ascending (by simp [Ascending])
    intro k
    rw [horder.stable]
    by_cases h0 : k = 0
    · subst h0
      decide
    · by_cases h21 : k = 21
      · subst h21
        decide
      · simp [methodEntry, Ne.symm h0, Ne.symm h21]
  refine ⟨l, hmem, hc, ?_⟩
  rw [hlines, hmerged, ofText_framed]
  decide

/-! ### Raising the limit -/

/-- The nodes that a component's script offers come in order of their start bytes, and each of
them has a line. -/
structure OrderedScript (l : Language) (source : Text) (tree : Option Node)
    (signatures : Bool) : Prop where
  ordered : (scriptCandidates l source tree).Pairwise fun a b => a.start ≤ b.start
  written : ∀ n ∈ scriptCandidates l source tree,
    (n.line? (scriptText source) signatures).isSome = true

/-- Where a function leaves nothing out, the first results are those of the first elements. -/
theorem filterMap_take {α β : Type} {f : α → Option β} {l : List α}
    (h : ∀ a ∈ l, (f a).isSome = true) (m : Nat) :
    (l.take m).filterMap f = (l.filterMap f).take m := by
  induction l generalizing m with
  | nil => rw [List.take_nil, List.filterMap_nil, List.take_nil]
  | cons a l ih =>
    obtain ⟨b, hb⟩ := Option.isSome_iff_exists.1 (h a List.mem_cons_self)
    cases m with
    | zero => rfl
    | succ m =>
      rw [List.take_succ_cons, List.filterMap_cons_some hb, List.filterMap_cons_some hb,
        List.take_succ_cons, ih (fun c hc => h c (List.mem_cons_of_mem a hc))]

/-- Cutting the second of two merged lists before the merge does not show in what is left after a
cut of the whole. -/
theorem take_merged_take {methods nodes : List (Nat × Text)} (hm : Ascending methods)
    (hn : Ascending nodes) (header footer : List Text) (m : Nat) :
    (header ++ ((methods ++ nodes.take m).mergeSort byNumber).map (·.2) ++ footer).take m =
      (header ++ ((methods ++ nodes).mergeSort byNumber).map (·.2) ++ footer).take m := by
  by_cases hlen : nodes.length ≤ m
  · rw [List.take_of_length_le hlen]
  · -- both merges alone are long enough, so that the footers are cut away
    have h1 : m ≤ (header ++ ((methods ++ nodes.take m).mergeSort byNumber).map (·.2)).length := by
      rw [List.length_append, List.length_map, List.length_mergeSort, List.length_append,
        List.length_take]
      omega
    have h2 : m ≤ (header ++ ((methods ++ nodes).mergeSort byNumber).map (·.2)).length := by
      rw [List.length_append, List.length_map, List.length_mergeSort, List.length_append]
      omega
    rw [List.take_append_of_le_length h1, List.take_append_of_le_length h2, List.take_append,
      List.take_append, ← List.map_take, ← List.map_take,
      take_mergeSort_append hm hn (Nat.sub_le m header.length)]

/-- Under every limit, the lines of an ordered component are the first of one list. -/
theorem componentLines_eq_take {l : Language} {source : Text} {tree : Option Node}
    {signatures : Bool} (h : OrderedScript l source tree signatures) (o : SummaryOptions)
    (ho : o.signatures = signatures) :
    componentLines l source tree o =
      ((ComponentFacts.ofText source).header ++ (((ComponentFacts.ofText source).methodLines ++
        (scriptCandidates l source tree).filterMap
          (lineAt (scriptText source) signatures)).mergeSort byNumber).map (·.2) ++
        (ComponentFacts.ofText source).footer).take o.maxLines := by
  have hwritten : ∀ n ∈ scriptCandidates l source tree,
      (lineAt (scriptText source) signatures n).isSome = true := by
    intro n hn
    rw [lineAt, Option.isSome_map]
    exact h.written n hn
  have hmethods : Ascending (ComponentFacts.ofText source).methodLines := by
    rw [Ascending, methodLines_eq, List.pairwise_map]
    exact (pairwise_methods source).imp Nat.le_of_lt
  have hnodes := ascending_filterMap_lineAt (scriptText source) signatures h.ordered
  rw [componentLines_eq, scriptEntries, ho, filterMap_take hwritten,
    take_merged_take hmethods hnodes]

/-- **A greater limit only adds lines at the end** of a summary.  For components this needs the
nodes of the script in order, each with a line. -/
theorem ofSource_prefix_ofSource (l : Language) (source : Text) (tree : Option Node)
    (o : SummaryOptions) {m m' : Nat} (hm : m ≤ m')
    (hc : l.backend = .component → OrderedScript l source tree o.signatures) :
    ofSource l source tree { o with maxLines := m } <+:
      ofSource l source tree { o with maxLines := m' } := by
  have htake : ∀ {α : Type} (xs : List α), xs.take m <+: xs.take m' := by
    intro α xs
    exact List.take_prefix_take_left hm
  cases hb : source.blank with
  | true =>
    rw [ofSource_of_blank l tree _ hb]
    exact List.nil_prefix
  | false =>
    unfold ofSource
    rw [hb]
    cases hl : l.backend with
    | grammar available =>
      cases available with
      | true =>
        simp only [treeLines_eq]
        exact ((htake _).filterMap _).map _
      | false => exact List.prefix_refl _
    | stylesheet => exact (htake _).map _
    | component =>
      have hs := hc hl
      simp only [componentLines_eq_take hs { o with maxLines := m } rfl,
        componentLines_eq_take hs { o with maxLines := m' } rfl]
      exact htake _

/-- A tree of the small script. -/
def smallTree : Node :=
  ⟨0, "program", none, true, 0, 30,
    [⟨1, "function_declaration", none, true, 6, 20,
      [⟨2, "identifier", some "name", true, 15, 16, []⟩]⟩,
     ⟨3, "class_declaration", none, true, 21, 30,
      [⟨4, "identifier", some "name", true, 27, 28, []⟩]⟩]⟩

theorem orderedScript_small {l : Language} (hl : l ∈ Language.standard)
    (hc : l.backend = .component) : OrderedScript l smallComponent (some smallTree) true := by
  have hs : (ComponentFacts.ofText smallComponent).script = some ⟨smallScript, false⟩ := rfl
  have hn := scriptCandidates_of_mem_standard hl hc smallComponent (some smallTree) _ hs
    (by decide)
  have ht : scriptText smallComponent = smallScript := by
    rw [scriptText, hs]
    rfl
  constructor
  · rw [hn]
    decide
  · rw [hn, ht]
    decide

theorem ofSource_prefix_ofSource_small :
    ∃ l ∈ Language.standard, l.backend = .component ∧ 2 ≤ 3 ∧
      OrderedScript l smallComponent (some smallTree) true ∧
      ofSource l smallComponent (some smallTree) { maxLines := 2 } <+:
        ofSource l smallComponent (some smallTree) { maxLines := 3 } := by
  obtain ⟨l, hmem, hc⟩ := exists_component
  have hordered := orderedScript_small hmem hc
  refine ⟨l, hmem, hc, by decide, hordered, ?_⟩
  exact ofSource_prefix_ofSource l smallComponent (some smallTree) {} (by decide) fun _ => hordered

end Summary

end Outline
