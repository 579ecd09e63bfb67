import Outline.Proofs.InnermostBlocks
import Outline.Proofs.StyleComments
import Outline.Proofs.Words

/-!
# The rules of a stylesheet

Which rules `Stylesheet.rules` finds in a text.

* `Stylesheet.IsRule` — what the run before a block and the text in it say of a rule;
* `Stylesheet.ListsRules` — what it is for a list to hold the rules of a text;
* `Stylesheet.listsRules_uncommented` — the rules of a stylesheet are those of its innermost blocks, once
  its comments are taken out;
* `Stylesheet.rules_append_closed` — behind a closing brace that is in no comment, rules are only added.
-/

namespace Outline.Stylesheet

/-! ### One rule -/

/-- A rule whose block has a run before it and a text in it. -/
structure IsRule (run inside : Text) (r : StyleRule) : Prop where
  /-- The selector is the part of the run behind the last semicolon, with single spaces. -/
  selector : ∃ lead part, run = lead ++ part ∧ (∀ c ∈ lead.getLast?, c = ';') ∧ ';' ∉ part ∧
    part.blank = false ∧ r.selector = part.collapse
  /-- A declaration is a piece with a colon between semicolons. -/
  declarations : r.declarations = (inside.splitOn ';').countP (·.contains ':')

theorem ruleOfBlock?_eq_some_iff {run inside : Text} {r : StyleRule} :
    ruleOfBlock? run inside = some r ↔ IsRule run inside r := by
  constructor
  · intro h
    rw [ruleOfBlock?] at h
    split at h
    · cases h
    · rename_i hne
      obtain rfl := Option.some.inj h
      obtain ⟨hpart, lead, hrun, hlead⟩ := Text.afterLast_eq_iff.1 (rfl : run.afterLast ';' = _)
      have hblank : (run.afterLast ';').blank = false := by
        rw [Bool.eq_false_iff]
        exact fun hb => hne (Text.collapse_eq_nil_iff.2 hb)
      exact ⟨⟨lead, _, hrun, hlead, hpart, hblank, rfl⟩, List.countP_eq_length_filter.symm⟩
  · rintro ⟨⟨lead, part, rfl, hlead, hpart, hblank, hselector⟩, hdeclarations⟩
    obtain ⟨selector, declarations⟩ := r
    dsimp only at hselector hdeclarations
    subst hselector hdeclarations
    have hne : part.collapse ≠ [] := by
      intro h
      rw [Text.collapse_eq_nil_iff.1 h] at hblank
      cases hblank
    rw [ruleOfBlock?, Text.afterLast_append hpart hlead, List.countP_eq_length_filter]
    exact if_neg hne

theorem IsRule.run_ne_nil {run inside : Text} {r : StyleRule} (h : IsRule run inside r) : run ≠ [] := by
  rintro rfl
  obtain ⟨lead, part, hrun, -, -, hblank, -⟩ := h.selector
  obtain ⟨-, rfl⟩ := List.append_eq_nil_iff.1 hrun.symm
  cases hblank

/-- **A selector** is not empty and holds no brace, no semicolon, and no blank but single spaces. -/
theorem IsRule.selector_clean {run inside : Text} {r : StyleRule} (h : IsRule run inside r)
    (hrun : BraceFree run) : r.selector ≠ [] ∧
      ∀ c ∈ r.selector, noBrace c = true ∧ c ≠ ';' ∧ (isBlank c = true → c = ' ') := by
  obtain ⟨lead, part, rfl, -, hpart, hblank, hselector⟩ := h.selector
  rw [hselector]
  constructor
  · intro hnil
    rw [Text.collapse_eq_nil_iff.1 hnil] at hblank
    cases hblank
  · intro c hc
    rcases Text.mem_collapse hc with rfl | ⟨hmem, hc⟩
    · decide
    · refine ⟨hrun c (List.mem_append_right lead hmem), fun he => hpart (he ▸ hmem), fun hb => ?_⟩
      rw [hc] at hb
      cases hb

/-! ### All rules -/

/-- The rules of a text whose comments have been taken out. -/
def rulesOf (t : Text) : List StyleRule :=
  (blocks t).filterMap fun (run, body) => ruleOfBlock? run body

theorem rules_eq (t : Text) : rules t = rulesOf (withoutComments t) := rfl

/-- What it is for a list to hold the rules of a text without comments. -/
structure ListsRules (t : Text) (rs : List StyleRule) : Prop where
  /-- They are those of the innermost blocks, in the order of the opening braces. -/
  placed : ∃ ps : List (Nat × StyleRule), ps.map (·.2) = rs ∧ (ps.Pairwise fun p q => p.1 < q.1) ∧
    ∀ place r, (place, r) ∈ ps ↔ ∃ before run inside after, Innermost t before run inside after ∧
      place = (before ++ run).length ∧ run ≠ [] ∧ IsRule run inside r
  /-- Each has a selector on one line, without braces and semicolons. -/
  selectors : ∀ r ∈ rs, r.selector ≠ [] ∧
    ∀ c ∈ r.selector, noBrace c = true ∧ c ≠ ';' ∧ (isBlank c = true → c = ' ')

theorem listsRules_rulesOf (t : Text) : ListsRules t (rulesOf t) := by
  obtain ⟨ps, hblocks, hsorted, hmem⟩ := exists_placed t
  constructor
  · refine ⟨ps.filterMap fun p => (ruleOfBlock? p.2.1 p.2.2).map fun r => (p.1, r), ?_, ?_, ?_⟩
    · rw [rulesOf, List.map_filterMap, ← hblocks, List.filterMap_map]
      congr 1
      funext p
      show ((ruleOfBlock? p.2.1 p.2.2).map fun r => (p.1, r)).map (·.2) = ruleOfBlock? p.2.1 p.2.2
      rw [Option.map_map]
      exact Option.map_id'
    · refine hsorted.filterMap _ fun p q hlt r hr r' hr' => ?_
      obtain ⟨s, -, rfl⟩ := Option.map_eq_some_iff.1 hr
      obtain ⟨s', -, rfl⟩ := Option.map_eq_some_iff.1 hr'
      exact hlt
    · intro place r
      rw [List.mem_filterMap]
      constructor
      · rintro ⟨⟨i, run, inside⟩, hp, hr⟩
        obtain ⟨s, hs, heq⟩ := Option.map_eq_some_iff.1 hr
        obtain ⟨rfl, rfl⟩ := Prod.mk.inj heq
        obtain ⟨before, after, hinner, hplace⟩ := (hmem _).1 hp
        have hrule := ruleOfBlock?_eq_some_iff.1 hs
        exact ⟨before, run, inside, after, hinner, hplace, hrule.run_ne_nil, hrule⟩
      · rintro ⟨before, run, inside, after, hinner, hplace, -, hrule⟩
        refine ⟨(place, run, inside), (hmem _).2 ⟨before, after, hinner, hplace⟩, ?_⟩
        rw [ruleOfBlock?_eq_some_iff.2 hrule]
        rfl
  · intro r hr
    obtain ⟨⟨run, inside⟩, hb, hr⟩ := List.mem_filterMap.1 hr
    rw [← hblocks] at hb
    obtain ⟨p, hp, heq⟩ := List.mem_map.1 hb
    obtain ⟨before, after, hinner, -⟩ := (hmem _).1 hp
    rw [heq] at hinner
    exact (ruleOfBlock?_eq_some_iff.1 hr).selector_clean hinner.run_free

/-- **The rules of a stylesheet.**  Take its comments out, one by one.  Then there is a rule for each
opening brace that the next brace closes, if the run before it ends in a selector: the part behind the
last semicolon, unless it is blank. -/
theorem listsRules_uncommented (source : Text) :
    ∃ t, Uncommented source t ∧ (∀ t', Uncommented source t' → t' = t) ∧
      ListsRules t (rules source) :=
  ⟨withoutComments source, uncommented_iff.2 rfl, fun _ h => uncommented_iff.1 h,
    listsRules_rulesOf _⟩

/-! ### Rules that are added -/

/-- A limit for the whole leaves room for lists that have been cut at a higher one. -/
theorem take_append_take {α : Type} {limit n : Nat} (h : limit ≤ n) (xs ys : List α) :
    (xs.take n ++ ys.take n).take limit = (xs ++ ys).take limit := by
  rw [List.take_append, List.take_append, List.take_take, List.take_take, List.length_take,
    Nat.min_eq_left h]
  congr 2
  omega

/-- **Behind a closing brace that is in no comment, rules are only added**: a text may be continued in
any way, and whatever braces are open in it. -/
theorem rules_append_closed {a : Text} (hclosed : CommentsClosed a)
    (hend : a = [] ∨ a.getLast? = some '}') (b : Text) :
    rules (a ++ b) = rules a ++ rules b ∧
      ∀ limit n, limit ≤ n → lines (a ++ b) limit = (lines a n ++ lines b n).take limit := by
  have hrules : rules (a ++ b) = rules a ++ rules b := by
    obtain ⟨hlast, hseam⟩ := hclosed.withoutComments_append (by decide) hend
    rw [rules_eq, rules_eq, rules_eq, hseam, rulesOf, blocks_append hlast, List.filterMap_append]
    rfl
  refine ⟨hrules, fun limit n hle => ?_⟩
  rw [lines, hrules, List.map_take, List.map_append, lines, lines, List.map_take, List.map_take,
    ← take_append_take hle]

/-- A text with a comment and with braces that are never closed. -/
def unbalanced : Text := "/* \x7d */.x \x7b \x7b .a \x7b b: c \x7d \x7d".toList

/-- A text that begins with another one, and with a comment that is never closed. -/
def trailing : Text := "\x7d */ .b\x7b\x7d /* \x7b".toList

theorem rules_append_closed_unbalanced :
    CommentsClosed unbalanced ∧ unbalanced.getLast? = some '}' ∧
      rules (unbalanced ++ trailing) = [⟨".a".toList, 1⟩, ⟨"*/ .b".toList, 0⟩] ∧
      lines (unbalanced ++ trailing) 1 = ["CSS Rule: .a (1 declaration)".toList] := by
  have hclosed : CommentsClosed unbalanced := by
    refine ⟨[⟨[], " \x7d ".toList⟩], ".x \x7b \x7b .a \x7b b: c \x7d \x7d".toList, rfl, ?_, ?_⟩
    · exact List.forall_mem_singleton.2 ⟨by decide, by decide⟩
    · decide +kernel
  have hend : unbalanced.getLast? = some '}' := by decide
  obtain ⟨hrules, hlines⟩ := rules_append_closed hclosed (Or.inr hend) trailing
  refine ⟨hclosed, hend, ?_, ?_⟩
  · rw [hrules]
    decide +kernel
  · rw [hlines 1 20 (by decide)]
    decide +kernel

end Outline.Stylesheet
