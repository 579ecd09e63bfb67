import Outline.Line
import Outline.Proofs.TidyTexts

/-!
# Tidy lines

A line is glued together from names, modifiers, selectors, parameters and results, each cleaned on its
own.

* `Node.showable_name?`, `Node.showable_signed`, `Node.showable_selectors?` — each piece is tidy, also
  where it is cut after a number of characters;
* `Node.showable_labelOf` — so are the labels of the table;
* `Node.tidy_line?` — hence the line is, and there is something behind its label.

Two rules are left out: an element without a tag shows the start of its source as it stands, and a node
that is written by name alone may have any kind for its label.
-/

namespace Outline.Node

open Text

variable {n : Node} {source t : Text}

/-! ### Names -/

theorem showable_of_nonEmpty? {s : Text} (hs : Tidy s) (h : s.nonEmpty? = some t) : Showable t := by
  rw [nonEmpty?] at h
  split at h
  · cases h
  · rename_i hne
    cases h
    exact ⟨hs, hne⟩

theorem showable_clean? (h : n.clean? source = some t) : Showable t := by
  obtain ⟨s, -, h⟩ := Option.bind_eq_some_iff.1 h
  exact showable_of_nonEmpty? (tidy_collapse s) h

theorem solid_comma : ∀ c ∈ [','], isBlank c = false := List.forall_mem_singleton.2 rfl

theorem showable_name? (h : n.name? source = some t) : Showable t := by
  rw [name?] at h
  split at h
  · exact showable_clean? h
  · refine showable_of_nonEmpty? (tidy_intercalate solid_comma fun s hs => ?_) h
    obtain ⟨spec, -, hs⟩ := List.mem_filterMap.1 hs
    obtain ⟨holder, -, hs⟩ := Option.bind_eq_some_iff.1 hs
    exact showable_clean? hs

/-! ### Signatures -/

theorem dropArrows_suffix (t : Text) : dropArrows t <:+ t := by
  fun_induction dropArrows t with
  | case1 r ih => exact ih.trans (List.suffix_append ['-', '>'] r)
  | case2 t => exact List.suffix_rfl

theorem tidy_writtenParameters (t : Text) : Tidy (writtenParameters t) := by
  rw [writtenParameters]
  apply Tidy.truncate
  split
  · exact tidy_collapse t
  · have hopen : Tidy ['('] := tidy_of_solid (List.all_iff_forall_prop.1 rfl)
    have hclose : Tidy [')'] := tidy_of_solid (List.all_iff_forall_prop.1 rfl)
    exact (hopen.append (tidy_collapse t)).append hclose

/-- A written result is nothing, or stands behind an arrow with spaces around. -/
theorem writtenResult_eq (t : Text) : writtenResult t = [] ∨
    ∃ r, writtenResult t = ' ' :: ("->".toList ++ ' ' :: r) ∧ Showable r := by
  have hsuffix : (dropArrows t.collapse).dropWhile (· == ':') <:+ t.collapse :=
    (List.dropWhile_suffix _).trans (dropArrows_suffix t.collapse)
  have htrim : Tidy (Text.trim ((dropArrows t.collapse).dropWhile (· == ':'))) :=
    ((tidy_collapse t).toSpaced.of_infix hsuffix.isInfix).tidy_trim
  rw [writtenResult]
  split
  · exact Or.inl rfl
  · rename_i hne
    exact Or.inr ⟨_, rfl, Showable.truncate ⟨htrim, hne⟩ signatureLimit⟩

/-- A signature can follow any name. -/
theorem showable_signed {name : Text} (h : Showable name) (n : Node) (source : Text) :
    Showable (name ++ n.signature source) := by
  have hparameters : ∀ o : Option Text, Showable (name ++ (o.map writtenParameters).getD []) := by
    intro o
    cases o with
    | none => exact h.append (tidy_of_solid (by simp))
    | some t => exact h.append (tidy_writtenParameters t)
  rw [signature, ← List.append_assoc]
  cases ((n.childAlong? "return_type").or (n.child? "result")).bind (·.text? source) with
  | none => exact (hparameters _).append (tidy_of_solid (by simp))
  | some t =>
    rw [Option.map_some, Option.getD_some]
    cases writtenResult_eq t with
    | inl hnone =>
      rw [hnone]
      exact (hparameters _).append (tidy_of_solid (by simp))
    | inr hr =>
      obtain ⟨r, hr, hshow⟩ := hr
      have harrow : Showable "->".toList := ⟨tidy_of_solid (List.all_iff_forall_prop.1 rfl), by decide⟩
      rw [hr]
      exact (hparameters _).append_space (harrow.append_space hshow)

/-! ### Counts -/

theorem isBlank_of_isDigit {c : Char} (h : c.isDigit = true) : isBlank c = false := by
  have hrange : 48 ≤ c.toNat ∧ c.toNat ≤ 57 := by
    simpa [Char.isDigit, UInt32.le_iff_toNat_le] using h
  rw [Bool.eq_false_iff]
  simp only [isBlank, ne_eq, Bool.or_eq_true, Bool.and_eq_true, decide_eq_true_eq, beq_iff_eq]
  omega

theorem showable_counted (k : Nat) {noun : String} (h : ∀ c ∈ noun.toList, isBlank c = false) :
    Showable (counted k noun) := by
  have hopen : Showable ('(' :: ofNat k) := by
    refine ⟨tidy_of_solid (List.forall_mem_cons.2 ⟨by decide, fun c hc => ?_⟩), List.cons_ne_nil _ _⟩
    exact isBlank_of_isDigit (Nat.isDigit_of_mem_toDigits (by decide) (by decide) hc)
  have hplural : Showable (plural k noun ++ [')']) := by
    refine ⟨tidy_of_solid (List.forall_mem_append.2 ⟨?_, List.all_iff_forall_prop.1 rfl⟩), by simp⟩
    rw [plural]
    split
    · exact h
    · exact List.forall_mem_append.2 ⟨h, List.all_iff_forall_prop.1 rfl⟩
  have hsplit : counted k noun = ('(' :: ofNat k) ++ ' ' :: (plural k noun ++ [')']) := by
    simp [counted]
  rw [hsplit]
  exact hopen.append_space hplural

/-! ### The rules -/

theorem showable_callable? {signatures : Bool} (h : n.callable? source signatures = some t) :
    Showable t := by
  obtain ⟨name, hname, rfl⟩ := Option.map_eq_some_iff.1 h
  split
  · exact showable_signed (showable_name? hname) n source
  · exact showable_name? hname

theorem isWord_of_mem_modifiers {w : Text} (h : w ∈ n.modifiers source) : IsWord w := by
  obtain ⟨s, -, hw⟩ := List.mem_flatMap.1 (List.mem_filter.1 h).1
  exact isWord_of_mem_words hw

theorem showable_typeLike? (h : n.typeLike? source = some t) : Showable t := by
  obtain ⟨name, hname, rfl⟩ := Option.map_eq_some_iff.1 h
  have hnil : ∀ c ∈ ([] : Text), isBlank c = false := by simp
  refine showable_intercalate hnil (fun w hw => ?_) (by simp)
  cases List.mem_append.1 hw with
  | inl hw => exact (isWord_of_mem_modifiers hw).showable
  | inr hw => exact List.mem_singleton.1 hw ▸ showable_name? hname

theorem showable_selectors? (h : n.selectors? source = some t) : Showable t := by
  obtain ⟨s, -, h⟩ := Option.bind_eq_some_iff.1 h
  split at h
  · exact showable_clean? h
  · rename_i parts hparts
    cases h
    refine showable_intercalate solid_comma (fun part hpart => ?_) hparts
    obtain ⟨c, -, hclean⟩ := List.mem_filterMap.1 hpart
    exact showable_clean? hclean

theorem showable_styleRule? (h : n.styleRule? source = some t) : Showable t := by
  obtain ⟨selectors, hselectors, rfl⟩ := Option.map_eq_some_iff.1 h
  exact (showable_selectors? hselectors).append_space (showable_counted _ (List.all_iff_forall_prop.1 rfl))

theorem showable_invocation? (h : n.invocation? source = some t) : Showable t := by
  obtain ⟨callee, -, h⟩ := Option.bind_eq_some_iff.1 h
  obtain ⟨name, hname, rfl⟩ := Option.map_eq_some_iff.1 h
  exact (showable_clean? hname).append (tidy_of_solid (List.all_iff_forall_prop.1 rfl))

/-! ### Lines -/

/-- The labels of the table are tidy. -/
theorem showable_labelOf {kind : String} (h : ruleOf kind ≠ .named) :
    Showable (labelOf kind).toList := by
  have htable : ∀ e ∈ KindLabel.table,
      collapse e.label.toList = e.label.toList ∧ e.label.toList ≠ [] := by decide
  cases hfind : KindLabel.find? kind with
  | none => exact absurd (ruleOf_of_find?_eq_none hfind) h
  | some e =>
    obtain ⟨htidy, hne⟩ := htable e (List.mem_of_find?_eq_some hfind)
    rw [labelOf, hfind]
    exact ⟨collapse_eq_self_iff.1 htidy, hne⟩

theorem showable_labelled {label : String} (hlabel : Showable label.toList) (h : Showable t) :
    Showable (labelled label t) := by
  have hsplit : labelled label t = (label.toList ++ [':']) ++ ' ' :: t := by simp [labelled]
  rw [hsplit]
  exact (hlabel.append (tidy_of_solid (List.all_iff_forall_prop.1 rfl))).append_space h

/-- What a line shows behind its label, where the rule cleans all its pieces. -/
theorem exists_labelled_of_line? {signatures : Bool} {line : Text}
    (h : n.line? source signatures = some line)
    (hrule : ruleOf n.kind ∈ [LineRule.callable, .typeLike, .styleRule, .invocation]) :
    ∃ shown, line = labelled (labelOf n.kind) shown ∧ Showable shown := by
  have hlabelled : ∀ {o : Option Text}, o.map (labelled (labelOf n.kind)) = some line →
      (∀ t, o = some t → Showable t) → ∃ shown, line = labelled (labelOf n.kind) shown ∧
        Showable shown := by
    intro o ho hshow
    obtain ⟨t, ht, hline⟩ := Option.map_eq_some_iff.1 ho
    exact ⟨t, hline.symm, hshow t ht⟩
  unfold line? at h
  cases hkind : ruleOf n.kind with
  | callable =>
    rw [hkind] at h
    exact hlabelled h fun t => showable_callable?
  | typeLike =>
    rw [hkind] at h
    exact hlabelled h fun t => showable_typeLike?
  | styleRule =>
    rw [hkind] at h
    exact hlabelled h fun t => showable_styleRule?
  | invocation =>
    rw [hkind] at h
    exact hlabelled h fun t => showable_invocation?
  | element =>
    rw [hkind] at hrule
    exact absurd hrule (by decide)
  | named =>
    rw [hkind] at hrule
    exact absurd hrule (by decide)

/-- **Lines are in the normal form of white space.**  Whatever the tree, its ranges and the source are,
and with signatures or without, the line of a callable, a type, a style rule or a call stays as it is
when blanks are collapsed: it has no blank at either end, and single spaces only within.  It begins with
its label, a colon and a space, and goes on with a character that is not blank. -/
theorem tidy_line? {signatures : Bool} {line : Text} (h : n.line? source signatures = some line)
    (hrule : ruleOf n.kind ∈ [LineRule.callable, .typeLike, .styleRule, .invocation]) :
    line.collapse = line ∧ Tidy line ∧
      ∃ c rest, line = labelled (labelOf n.kind) (c :: rest) ∧ isBlank c = false := by
  obtain ⟨shown, rfl, hshow⟩ := exists_labelled_of_line? h hrule
  have hnamed : ruleOf n.kind ≠ .named := by
    intro hnamed
    rw [hnamed] at hrule
    exact absurd hrule (by decide)
  have htidy : Tidy (labelled (labelOf n.kind) shown) :=
    (showable_labelled (showable_labelOf hnamed) hshow).toTidy
  obtain ⟨c, rest, rfl⟩ := List.exists_cons_of_ne_nil hshow.ne_nil
  exact ⟨htidy.collapse_eq, htidy, c, rest, rfl, hshow.first c rfl⟩

/-- A function with blanks of many kinds, and with more parameters than a line shows. -/
def spreadSource : Text :=
  "f\u00a0\u2003g\n(_,".toList ++ (List.replicate 60 "x,\t".toList).flatten ++
    ")->:\u3000: T\nU ".toList

def spread : Node :=
  ⟨0, "function_item", none, true, 0, 204,
    [⟨1, "identifier", some "name", true, 0, 7, []⟩,
     ⟨2, "parameters", some "parameters", true, 8, 192, []⟩,
     ⟨3, "type", some "return_type", true, 192, 204, []⟩]⟩

/-- Its line: the parameters are cut behind a space. -/
def spreadLine : Text :=
  "Function: f g(_,".toList ++ (List.replicate 39 "x, ".toList).flatten ++ "... -> : T U".toList

theorem tidy_line?_spread : spread.line? spreadSource true = some spreadLine ∧
    ruleOf spread.kind ∈ [LineRule.callable, .typeLike, .styleRule, .invocation] ∧
      spreadLine.collapse = spreadLine ∧ Tidy spreadLine := by
  have hline : spread.line? spreadSource true = some spreadLine := by decide +kernel
  have hrule : ruleOf spread.kind ∈ [LineRule.callable, .typeLike, .styleRule, .invocation] := by
    decide
  obtain ⟨hcollapse, htidy, -⟩ := tidy_line? hline hrule
  exact ⟨hline, hrule, hcollapse, htidy⟩

end Outline.Node
