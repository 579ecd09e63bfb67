import Outline.Proofs.StyleRules

/-!
# Flat stylesheets with comments

Stylesheets that are put together from flat rules, with comments between them.

* `Stylesheet.Filler`, `Stylesheet.FlatRule`, `Stylesheet.Sheet` — blanks and comments of both forms,
  rules, and texts made of them;
* `Stylesheet.Sheet.left` — what is left of such a text when the closed comments are taken out: the line
  comments stay;
* `Stylesheet.Sheet.rulesOf_left` — its rules: those that the line comments make, and each flat rule
  behind what has been left before it;
* `Stylesheet.Sheet.rules_text` — so block comments are without effect, and line comments exactly where
  they make no rule and no part of a selector.
-/

namespace Outline.Stylesheet

/-! ### Sheets -/

/-- What may stand between two rules. -/
inductive Filler where
  | blanks (t : Text)
  | block (inner : Text)
  | line (inner : Text)

namespace Filler

/-- A block comment stands between its markers, a line comment ends with its line. -/
def text : Filler → Text
  | blanks t => t
  | block inner => opening ++ (inner ++ closing)
  | line inner => '/' :: '/' :: (inner ++ ['\n'])

/-- A comment goes on to its first end. -/
def WellFormed : Filler → Prop
  | blanks t => t.blank = true
  | block inner => ¬ closing <:+: inner
  | line inner => '\n' ∉ inner

instance (f : Filler) : Decidable f.WellFormed :=
  match f with
  | blanks t => inferInstanceAs (Decidable (t.blank = true))
  | block inner => inferInstanceAs (Decidable (¬ closing <:+: inner))
  | line inner => inferInstanceAs (Decidable ('\n' ∉ inner))

/-- Whether a filler is no comment. -/
def isBlanks : Filler → Bool
  | blanks _ => true
  | block _ | line _ => false

/-- Whether a filler is a line comment. -/
def isLine : Filler → Bool
  | line _ => true
  | blanks _ | block _ => false

/-- What is left of a filler when the closed comments are taken out. -/
def left : Filler → Text
  | block _ => []
  | f => f.text

end Filler

/-- The text between two rules. -/
def gapText (gap : List Filler) : Text := gap.flatMap Filler.text

/-- What is left of it when the closed comments are taken out. -/
def gapLeft (gap : List Filler) : Text := gap.flatMap Filler.left

/-- A text without braces and without the beginning of a comment. -/
structure Plain (t : Text) : Prop where
  braceFree : BraceFree t
  noBlock : ¬ opening <:+: t
  noLine : ¬ ['/', '/'] <:+: t

instance (t : Text) : Decidable (Plain t) :=
  decidable_of_iff (t.all noBrace = true ∧ ¬ opening <:+: t ∧ ¬ ['/', '/'] <:+: t)
    ⟨fun ⟨hfree, hblock, hline⟩ => ⟨List.all_eq_true.1 hfree, hblock, hline⟩,
      fun h => ⟨List.all_eq_true.2 h.braceFree, h.noBlock, h.noLine⟩⟩

/-- A rule by the texts before and between its braces. -/
structure FlatRule where
  selector : Text
  declarations : Text

namespace FlatRule

/-- The rule as it is written. -/
def text (r : FlatRule) : Text := r.selector ++ '{' :: (r.declarations ++ ['}'])

/-- A rule has a selector: a part behind the last semicolon before its brace. -/
structure WellFormed (r : FlatRule) : Prop where
  selector : Plain r.selector
  declarations : Plain r.declarations
  named : (r.selector.afterLast ';').blank = false

instance (r : FlatRule) : Decidable r.WellFormed :=
  decidable_of_iff
    (Plain r.selector ∧ Plain r.declarations ∧ (r.selector.afterLast ';').blank = false)
    ⟨fun ⟨hselector, hdeclarations, hnamed⟩ => ⟨hselector, hdeclarations, hnamed⟩,
      fun h => ⟨h.selector, h.declarations, h.named⟩⟩

/-- The number of its declarations. -/
def count (r : FlatRule) : Nat := (r.declarations.splitOn ';').countP (·.contains ':')

/-- What the rule says by itself. -/
def rule (r : FlatRule) : StyleRule := ⟨(r.selector.afterLast ';').collapse, r.count⟩

end FlatRule

/-- Flat rules, each with a gap before it, and the gap behind the last one. -/
structure Sheet where
  entries : List (List Filler × FlatRule)
  last : List Filler

namespace Sheet

/-- The sheet as it is written. -/
def text (s : Sheet) : Text := s.entries.flatMap (fun e => gapText e.1 ++ e.2.text) ++ gapText s.last

/-- The gaps of a sheet. -/
def gaps (s : Sheet) : List (List Filler) := s.entries.map (·.1) ++ [s.last]

/-- A sheet is well-formed in its gaps and in its rules. -/
structure WellFormed (s : Sheet) : Prop where
  gaps : ∀ gap ∈ s.gaps, ∀ f ∈ gap, f.WellFormed
  rules : ∀ e ∈ s.entries, e.2.WellFormed

/-- The sheet with all comments deleted. -/
def bare (s : Sheet) : Sheet :=
  ⟨s.entries.map fun e => (e.1.filter Filler.isBlanks, e.2), s.last.filter Filler.isBlanks⟩

/-- What its rules say, each by itself. -/
def own (s : Sheet) : List StyleRule := s.entries.map (·.2.rule)

/-- What is left of a sheet when the closed comments are taken out. -/
def left (s : Sheet) : Text :=
  s.entries.flatMap (fun e => gapLeft e.1 ++ e.2.text) ++ gapLeft s.last

end Sheet

/-! ### What is left of a sheet -/

/-- A comment does not begin across a character that its beginning does not hold. -/
theorem not_opening_infix_cons {s t : Text} {c : Char} (hs : ¬ opening <:+: s)
    (ht : ¬ opening <:+: t) (hc : c ∉ opening) : ¬ opening <:+: s ++ c :: t := by
  rw [List.infix_append_iff_ne_nil]
  rintro (h | h | ⟨l₁, l₂, -, h₂, hl, -, hpre⟩)
  · exact hs h
  · rcases List.infix_cons_iff.1 h with hpre | h
    · exact hc ((List.cons_prefix_cons.1 hpre).1 ▸ List.mem_cons_self)
    · exact ht h
  · obtain ⟨d, l, rfl⟩ := List.exists_cons_of_ne_nil h₂
    obtain ⟨rfl, -⟩ := List.cons_prefix_cons.1 hpre
    exact hc (hl ▸ List.mem_append_right l₁ List.mem_cons_self)

theorem not_slash_mem_of_blank {t : Text} (h : t.blank = true) : '/' ∉ t :=
  fun hmem => absurd (List.all_eq_true.1 h '/' hmem) (by decide)

/-- What the removal of comments passes over: a line comment without the beginning of a block comment,
and all other fillers. -/
def Filler.Passed (f : Filler) : Prop := f.isLine = true → ¬ opening <:+: f.text

instance (f : Filler) : Decidable f.Passed :=
  inferInstanceAs (Decidable (f.isLine = true → ¬ opening <:+: f.text))

/-- A filler that is passed over leaves what it leaves by itself. -/
theorem withoutComments_filler {f : Filler} (hf : f.WellFormed) (hpassed : f.Passed) (rest : Text) :
    withoutComments (f.text ++ rest) = f.left ++ withoutComments rest := by
  cases f with
  | blanks t =>
    have hslash : '/' ∉ t := not_slash_mem_of_blank hf
    exact withoutComments_plain_append (fun h => hslash (h.mem List.mem_cons_self))
      (fun h => hslash (List.mem_of_getLast? h)) rest
  | block inner =>
    have hnone : ¬ opening <:+: [] := by decide
    show withoutComments (opening ++ (inner ++ closing) ++ rest) = withoutComments rest
    rw [List.append_assoc, List.append_assoc]
    exact withoutComments_comment hnone hf rest
  | line inner =>
    have hend : (Filler.line inner).text.getLast? ≠ some '/' := by
      show ('/' :: '/' :: (inner ++ ['\n'])).getLast? ≠ _
      rw [← List.cons_append, ← List.cons_append, List.getLast?_concat]
      decide
    exact withoutComments_plain_append (hpassed rfl) hend rest

theorem withoutComments_gap {gap : List Filler} (hgap : ∀ f ∈ gap, f.WellFormed)
    (hpassed : ∀ f ∈ gap, f.Passed) (rest : Text) :
    withoutComments (gapText gap ++ rest) = gapLeft gap ++ withoutComments rest := by
  induction gap with
  | nil => rfl
  | cons f gap ih =>
    obtain ⟨hf, hgap⟩ := List.forall_mem_cons.1 hgap
    obtain ⟨hp, hpassed⟩ := List.forall_mem_cons.1 hpassed
    rw [gapText, List.flatMap_cons, List.append_assoc, withoutComments_filler hf hp]
    show f.left ++ withoutComments (gapText gap ++ rest) = _
    rw [ih hgap hpassed, gapLeft, gapLeft, List.flatMap_cons, List.append_assoc]

theorem withoutComments_flatRule {r : FlatRule} (hr : r.WellFormed) (rest : Text) :
    withoutComments (r.text ++ rest) = r.text ++ withoutComments rest := by
  have hplain : ¬ opening <:+: r.text := by
    refine not_opening_infix_cons hr.selector.noBlock ?_ (by decide)
    exact not_opening_infix_cons hr.declarations.noBlock (by decide) (by decide)
  have hend : r.text.getLast? ≠ some '/' := by
    rw [FlatRule.text, ← List.cons_append, ← List.append_assoc, List.getLast?_concat]
    decide
  exact withoutComments_plain_append hplain hend rest

/-- **Rules with gaps before them**, and any text behind them. -/
theorem withoutComments_entries {es : List (List Filler × FlatRule)}
    (hgaps : ∀ e ∈ es, ∀ f ∈ e.1, f.WellFormed) (hpassed : ∀ e ∈ es, ∀ f ∈ e.1, f.Passed)
    (hrules : ∀ e ∈ es, e.2.WellFormed) (rest : Text) :
    withoutComments (es.flatMap (fun e => gapText e.1 ++ e.2.text) ++ rest) =
      es.flatMap (fun e => gapLeft e.1 ++ e.2.text) ++ withoutComments rest := by
  induction es with
  | nil => rfl
  | cons e es ih =>
    obtain ⟨hgap, hgaps⟩ := List.forall_mem_cons.1 hgaps
    obtain ⟨hpass, hpassed⟩ := List.forall_mem_cons.1 hpassed
    obtain ⟨hrule, hrules⟩ := List.forall_mem_cons.1 hrules
    rw [List.flatMap_cons, List.flatMap_cons, List.append_assoc, List.append_assoc,
      withoutComments_gap hgap hpass, withoutComments_flatRule hrule, ih hgaps hpassed hrules]
    simp only [List.append_assoc]

namespace Sheet

variable {s : Sheet}

/-- No line comment of a sheet opens a block comment. -/
def Passed (s : Sheet) : Prop := ∀ gap ∈ s.gaps, ∀ f ∈ gap, f.Passed

theorem forall_mem_gaps {P : List Filler → Prop} :
    (∀ gap ∈ s.gaps, P gap) ↔ (∀ e ∈ s.entries, P e.1) ∧ P s.last := by
  rw [gaps, List.forall_mem_append, List.forall_mem_map, List.forall_mem_singleton]

/-- The closed comments of a sheet are its block comments, if no line comment opens one. -/
theorem withoutComments_text (hs : s.WellFormed) (hpassed : s.Passed) :
    withoutComments s.text = s.left := by
  obtain ⟨hgaps, hlast⟩ := forall_mem_gaps.1 hs.gaps
  obtain ⟨hpass, hlastPass⟩ := forall_mem_gaps.1 hpassed
  have htail : withoutComments (gapText s.last) = gapLeft s.last := by
    have hgap := withoutComments_gap hlast hlastPass []
    rwa [withoutComments_nil, List.append_nil, List.append_nil] at hgap
  rw [text, withoutComments_entries hgaps hpass hs.rules, htail]
  rfl

end Sheet

/-! ### The rules of what is left -/

/-- The beginning of a selector that a text ends with: what is behind its last brace and semicolon. -/
def pending (t : Text) : Text := (lastRun t).afterLast ';'

namespace FlatRule

variable {r : FlatRule}

/-- What the rule says behind a text. -/
def behind (r : FlatRule) (t : Text) : StyleRule :=
  ⟨((lastRun t ++ r.selector).afterLast ';').collapse, r.count⟩

/-- A semicolon in the selector ends what is pending before it. -/
theorem behind_eq_rule_iff {t : Text} :
    r.behind t = r.rule ↔ ';' ∈ r.selector ∨ (pending t).blank = true := by
  have hselector : r.behind t = r.rule ↔
      ((lastRun t ++ r.selector).afterLast ';').collapse = (r.selector.afterLast ';').collapse := by
    rw [behind, rule, StyleRule.mk.injEq, and_iff_left rfl]
  by_cases hmem : ';' ∈ r.selector
  · rw [hselector, Text.afterLast_append_of_mem hmem]
    exact iff_of_true rfl (Or.inl hmem)
  · rw [hselector, Text.afterLast_append_of_not_mem hmem, Text.afterLast_of_not_mem hmem,
      Text.collapse_append_iff, or_iff_right hmem]
    rfl

theorem ruleOfBlock?_behind (hr : r.WellFormed) (t : Text) :
    ruleOfBlock? (lastRun t ++ r.selector) r.declarations = some (r.behind t) := by
  have hnamed : ((lastRun t ++ r.selector).afterLast ';').collapse ≠ [] := by
    rw [Ne, Text.collapse_eq_nil_iff, Bool.not_eq_true]
    have hname := hr.named
    by_cases hmem : ';' ∈ r.selector
    · rwa [Text.afterLast_append_of_mem hmem]
    · rw [Text.afterLast_of_not_mem hmem] at hname
      rw [Text.afterLast_append_of_not_mem hmem, Text.blank, List.all_append]
      rw [Text.blank] at hname
      rw [hname, Bool.and_false]
  rw [ruleOfBlock?, behind, count, List.countP_eq_length_filter]
  exact if_neg hnamed

/-- **A flat rule behind a text** is one more rule, and begins with what the text ends with. -/
theorem rulesOf_append_text (hr : r.WellFormed) (t rest : Text) :
    rulesOf (t ++ (r.text ++ rest)) = rulesOf t ++ r.behind t :: rulesOf rest := by
  have htext : r.text ++ rest = r.selector ++ '{' :: (r.declarations ++ '}' :: rest) := by
    simp only [text, List.append_assoc, List.cons_append, List.nil_append]
  rw [htext, rulesOf, blocks_append_block hr.selector.braceFree hr.declarations.braceFree,
    List.filterMap_append]
  refine congrArg (rulesOf t ++ ·) (List.filterMap_cons_some ?_)
  exact ruleOfBlock?_behind hr t

end FlatRule

/-! ### The rules of a sheet -/

theorem length_le_flatMap_concat {α β : Type} (f : α → List β) (g : α → β) (l : List α) :
    l.length ≤ (l.flatMap fun a => f a ++ [g a]).length := by
  induction l with
  | nil => exact Nat.le_refl 0
  | cons a l ih =>
    simp only [List.flatMap_cons, List.length_append, List.length_cons]
    omega

/-- A list with one item for each is made part by part, and only if the parts hold nothing else. -/
theorem flatMap_concat_eq_map_iff {α β : Type} {f : α → List β} {g h : α → β} {l : List α}
    {rest : List β} : l.flatMap (fun a => f a ++ [g a]) ++ rest = l.map h ↔
      (∀ a ∈ l, f a = [] ∧ g a = h a) ∧ rest = [] := by
  induction l with
  | nil => simp
  | cons a l ih =>
    rw [List.flatMap_cons, List.map_cons, List.forall_mem_cons, and_assoc, ← ih]
    constructor
    · intro heq
      have hlength := congrArg List.length heq
      -- the rest of the list has an item for each of `l` already
      have hle := length_le_flatMap_concat f g l
      have hnil : f a = [] := by
        apply List.eq_nil_of_length_eq_zero
        simp only [List.length_append, List.length_cons, List.length_map] at hlength
        omega
      rw [hnil] at heq
      exact ⟨⟨hnil, (List.cons.inj heq).1⟩, (List.cons.inj heq).2⟩
    · rintro ⟨⟨hnil, hhead⟩, htail⟩
      rw [hnil, hhead, ← htail]
      rfl

namespace Sheet

variable {s : Sheet}

theorem rulesOf_left (hs : s.WellFormed) : rulesOf s.left =
    s.entries.flatMap (fun e => rulesOf (gapLeft e.1) ++ [e.2.behind (gapLeft e.1)]) ++
      rulesOf (gapLeft s.last) := by
  have hrules := hs.rules
  rw [left]
  generalize s.entries = es at hrules
  induction es with
  | nil => rfl
  | cons e es ih =>
    obtain ⟨hrule, hrules⟩ := List.forall_mem_cons.1 hrules
    rw [List.flatMap_cons, List.flatMap_cons, List.append_assoc, List.append_assoc,
      e.2.rulesOf_append_text hrule, ih hrules]
    simp only [List.append_assoc, List.cons_append, List.nil_append]

/-- Line comments that are not seen: they make no rule, and no selector begins with one. -/
structure Unseen (s : Sheet) : Prop where
  rules : ∀ e ∈ s.entries, rulesOf (gapLeft e.1) = [] ∧
    (';' ∈ e.2.selector ∨ (pending (gapLeft e.1)).blank = true)
  last : rulesOf (gapLeft s.last) = []

/-- What is left says the rules of the sheet exactly if no line comment is seen in it. -/
theorem rulesOf_left_eq_own_iff (hs : s.WellFormed) : rulesOf s.left = s.own ↔ s.Unseen := by
  rw [rulesOf_left hs, own, flatMap_concat_eq_map_iff]
  constructor
  · rintro ⟨hrules, hlast⟩
    exact ⟨fun e he => (hrules e he).imp_right FlatRule.behind_eq_rule_iff.1, hlast⟩
  · rintro ⟨hrules, hlast⟩
    exact ⟨fun e he => (hrules e he).imp_right FlatRule.behind_eq_rule_iff.2, hlast⟩

/-! ### Sheets without line comments -/

/-- Blanks and block comments leave blanks. -/
theorem blank_gapLeft {gap : List Filler} (hgap : ∀ f ∈ gap, f.WellFormed)
    (hlines : ∀ f ∈ gap, f.isLine = false) : (gapLeft gap).blank = true := by
  rw [Text.blank, gapLeft, List.all_flatMap, List.all_eq_true]
  intro f hf
  cases f with
  | blanks t => exact hgap _ hf
  | block inner => rfl
  | line inner => cases hlines _ hf

theorem braceFree_of_blank {t : Text} (h : t.blank = true) : BraceFree t := by
  intro c hc
  have hblank : isBlank c = true := List.all_eq_true.1 h c hc
  cases hbrace : noBrace c with
  | true => rfl
  | false =>
    rcases eq_brace hbrace with rfl | rfl
    · exact absurd hblank (by decide)
    · exact absurd hblank (by decide)

/-- Blanks make no rule, and nothing is pending behind them. -/
theorem rulesOf_of_blank {t : Text} (h : t.blank = true) :
    rulesOf t = [] ∧ (pending t).blank = true := by
  have hfree := braceFree_of_blank h
  have hsemicolon : ';' ∉ t := fun hmem => absurd (List.all_eq_true.1 h ';' hmem) (by decide)
  rw [rulesOf, blocks_of_braceFree hfree, pending, lastRun_of_braceFree hfree,
    Text.afterLast_of_not_mem hsemicolon]
  exact ⟨rfl, h⟩

/-- No comment of a sheet is a line comment. -/
def NoLines (s : Sheet) : Prop := ∀ gap ∈ s.gaps, ∀ f ∈ gap, f.isLine = false

theorem NoLines.unseen (hs : s.WellFormed) (h : s.NoLines) : s.Unseen := by
  have hblank : ∀ gap ∈ s.gaps, rulesOf (gapLeft gap) = [] ∧ (pending (gapLeft gap)).blank = true :=
    fun gap hgap => rulesOf_of_blank (blank_gapLeft (hs.gaps gap hgap) (h gap hgap))
  obtain ⟨hrules, hlast⟩ := forall_mem_gaps.1 hblank
  exact ⟨fun e he => (hrules e he).imp_right Or.inr, hlast.1⟩

theorem NoLines.passed (h : s.NoLines) : s.Passed := by
  intro gap hgap f hf hline
  rw [h gap hgap f hf] at hline
  cases hline

theorem gaps_bare (s : Sheet) : s.bare.gaps = s.gaps.map (·.filter Filler.isBlanks) := by
  rw [gaps, gaps, bare, List.map_append, List.map_map, List.map_map]
  rfl

theorem own_bare (s : Sheet) : s.bare.own = s.own := by
  rw [own, own, bare, List.map_map]
  rfl

theorem WellFormed.bare (hs : s.WellFormed) : s.bare.WellFormed := by
  constructor
  · rw [gaps_bare, List.forall_mem_map]
    intro gap hgap f hf
    exact hs.gaps gap hgap f (List.mem_filter.1 hf).1
  · show ∀ e ∈ s.entries.map fun e => (e.1.filter Filler.isBlanks, e.2), e.2.WellFormed
    rw [List.forall_mem_map]
    exact hs.rules

theorem noLines_bare (s : Sheet) : s.bare.NoLines := by
  rw [NoLines, gaps_bare, List.forall_mem_map]
  intro gap _ f hf
  cases f with
  | line inner => cases (List.mem_filter.1 hf).2
  | blanks t => rfl
  | block inner => rfl

/-- **The rules of a sheet.**  Block comments are never seen: a sheet without line comments says the
rules of the sheet without comments.  A sheet with line comments, none of which opens a block comment,
says these rules exactly if no line comment makes a rule or begins a selector. -/
theorem rules_text (hs : s.WellFormed) : rules s.bare.text = s.own ∧
    (s.NoLines → rules s.text = s.own) ∧
    (s.Passed → (rules s.text = s.own ↔ s.Unseen)) := by
  have hpassed (h : s.Passed) : rules s.text = s.own ↔ s.Unseen := by
    rw [rules_eq, withoutComments_text hs h]
    exact rulesOf_left_eq_own_iff hs
  refine ⟨?_, fun h => (hpassed h.passed).2 (h.unseen hs), hpassed⟩
  have hbare := s.noLines_bare
  rw [rules_eq, withoutComments_text hs.bare hbare.passed, ← own_bare]
  exact (rulesOf_left_eq_own_iff hs.bare).2 (hbare.unseen hs.bare)

/-- A sheet whose line comments end with a semicolon, with a brace, and behind the last rule. -/
def unseen : Sheet where
  entries :=
    [([.block " \x7b ".toList, .blanks " ".toList, .line " first;".toList],
      ⟨" .a,\n .b ".toList, " color: red; top: 0 ".toList⟩),
     ([.blanks "\n".toList, .line " \x7b".toList], ⟨".c".toList, []⟩)]
  last := [.line " the end".toList]

theorem rules_text_unseen : unseen.WellFormed ∧ unseen.Passed ∧
    rules unseen.text = [⟨".a, .b".toList, 2⟩, ⟨".c".toList, 0⟩] := by
  have hs : unseen.WellFormed := ⟨by decide +kernel, by decide +kernel⟩
  have hpassed : unseen.Passed := show ∀ gap ∈ unseen.gaps, ∀ f ∈ gap, f.Passed by decide +kernel
  have hunseen : unseen.Unseen := ⟨by decide +kernel, by decide +kernel⟩
  refine ⟨hs, hpassed, ?_⟩
  rw [((rules_text hs).2.2 hpassed).2 hunseen]
  decide +kernel

/-- A line comment that is seen: the rule behind it gets it into its selector. -/
def noted : Sheet := ⟨[([.line " note".toList], ⟨".a ".toList, " color: red ".toList⟩)], []⟩

theorem rules_text_noted : noted.WellFormed ∧ noted.Passed ∧
    noted.text = "// note\n.a \x7b color: red \x7d".toList ∧
    rules noted.text = [⟨"// note .a".toList, 1⟩] ∧
    noted.own = [⟨".a".toList, 1⟩] ∧ rules noted.text ≠ noted.own := by
  have hs : noted.WellFormed := ⟨by decide +kernel, by decide +kernel⟩
  have hpassed : noted.Passed := show ∀ gap ∈ noted.gaps, ∀ f ∈ gap, f.Passed by decide +kernel
  have hrules : rules noted.text = [⟨"// note .a".toList, 1⟩] := by decide +kernel
  have hown : noted.own = [⟨".a".toList, 1⟩] := by decide +kernel
  refine ⟨hs, hpassed, by decide +kernel, hrules, hown, ?_⟩
  rw [hrules, hown]
  decide

end Sheet

end Outline.Stylesheet
