import Outline.Proofs.ComponentAssembly

/-!
# What a template does to the other blocks

The scan looks for every block in the whole text, so it may take a tag of the template for the
opening tag of a later block.

* `Component.tagNames` — the names of the opening tags of a text, whole;
* `Component.templated` — a component of a template, a script and a style block;
* `Component.infix_iff_exists_tagName` — what the scan takes for an opening tag of a kind are the
  tags whose names begin with the name of the kind;
* `Component.Behind.body_iff` — the block behind a template is found exactly if the template holds no
  such tag, and otherwise a longer one is (`Component.Behind.exists_longer`);
* `Component.ofText_templated` — the facts that do not depend on the template.
-/

namespace Outline.Component

/-! ### Names of tags -/

/-- The characters that go on with the name of a tag. -/
def continuesTag (c : Char) : Bool := isWord c || c == '-'

/-- The names of the opening tags of a text, in order. -/
def tagNames : Text → List Text
  | [] => []
  | c :: r =>
    if c = '<' ∧ r.head?.any Char.isAlpha then r.takeWhile continuesTag :: tagNames r
    else tagNames r

/-- The tags with a name are the ones that the scan of a template counts. -/
theorem length_tagNames (t : Text) : (tagNames t).length = countOpenTags t := by
  induction t with
  | nil => rfl
  | cons c r ih =>
    by_cases hc : c = '<'
    · rw [hc, tagNames, countOpenTags, ← ih]
      by_cases hr : r.head?.any Char.isAlpha
      · rw [if_pos ⟨rfl, hr⟩, if_pos hr, List.length_cons, Nat.add_comm]
      · rw [if_neg fun h => hr h.2, if_neg hr, Nat.zero_add]
    · rw [tagNames, if_neg fun h => hc h.1, countOpenTags, ih]
      exact hc

/-- The name of a kind is one that a tag may have. -/
theorem name_continues (k : Tag) : ∀ c ∈ k.name.toList, continuesTag c = true :=
  List.all_eq_true.1 (by cases k <;> decide +kernel)

theorem name_starts {k : Tag} {r : Text} (h : k.name.toList <+: r) :
    r.head?.any Char.isAlpha = true := by
  obtain ⟨s, rfl⟩ := h
  cases k <;> rfl

theorem name_prefix_takeWhile_iff {k : Tag} {r : Text} :
    k.name.toList <+: r.takeWhile continuesTag ↔ k.name.toList <+: r := by
  constructor
  · exact fun h => h.trans (List.takeWhile_prefix _)
  · rintro ⟨s, rfl⟩
    rw [List.takeWhile_append_of_pos (name_continues k)]
    exact List.prefix_append _ _

/-- **An opening marker stands where a tag's name begins with it.** -/
theorem infix_iff_exists_tagName {k : Tag} {t : Text} :
    openMarker k.name <:+: t ↔ ∃ n ∈ tagNames t, k.name.toList <+: n := by
  induction t with
  | nil => simp [openMarker, tagNames]
  | cons c r ih =>
    have hpre : openMarker k.name <+: c :: r ↔ '<' = c ∧ k.name.toList <+: r := List.cons_prefix_cons
    rw [List.infix_cons_iff, ih, hpre, tagNames]
    split
    · rename_i hc
      rw [List.exists_mem_cons_iff, name_prefix_takeWhile_iff, hc.1]
      simp
    · rename_i hc
      rw [or_iff_right]
      rintro ⟨hlt, hr⟩
      exact hc ⟨hlt.symm, name_starts hr⟩

/-! ### Seams of a template -/

section

variable {k : Tag} {T t : Text}

/-- The opening tag of a template makes no marker of another kind with what follows. -/
theorem infix_opening_iff (hk : k ≠ .template) {m : Text} (hm : m ∈ k.markers) :
    m <:+: openMarker "template" ++ '>' :: t ↔ m <:+: t := by
  have hpre : ¬ m <+: openMarker "template" ++ '>' :: t :=
    not_prefix_marker_append hk hm (openMarker_mem .template) _
  have hopen : openMarker "template" ++ '>' :: t = '<' :: ("template>".toList ++ t) := by
    simp [openMarker]
  rw [hopen, tag_infix_cons_append (isTag_of_mem_markers hm) (by decide), ← hopen,
    or_iff_right hpre]

theorem not_infix_closing (hk : k ≠ .template) :
    ∀ m ∈ k.markers, ¬ m <:+: closeMarker "template" := by
  revert hk
  cases k <;> decide

/-- Neither does its closing tag. -/
theorem infix_closing_iff (hk : k ≠ .template) {m mid : Text} (hm : m ∈ k.markers)
    (hmid : mid.Starts) :
    m <:+: T ++ (closeMarker "template" ++ mid) ↔ m <:+: T ∨ m <:+: mid := by
  have htag := isTag_of_mem_markers hm
  have hclose : (closeMarker "template" ++ mid).Starts := Text.starts_cons _
  rw [Text.tag_infix_append_iff htag hclose, Text.tag_infix_append_iff htag hmid,
    or_iff_right (not_infix_closing hk m hm)]

/-- **A tag of the template is taken for the block's own.**  What follows it is the end of the
template and what is behind the template, or only the latter if the tag does not end before. -/
theorem opened?_within (hk : k ≠ .template) (h : openMarker k.name <:+: T) (mid own : Text) :
    ∃ attributes x, x <:+ T ++ (closeMarker "template" ++ mid) ∧
      opened? k.name (openMarker "template" ++ '>' ::
        (T ++ (closeMarker "template" ++ (mid ++ own)))) = some (attributes, x ++ own) := by
  obtain ⟨⟨a, b⟩, hcut⟩ :=
    Option.ne_none_iff_exists'.1 (mt (Text.cut?_eq_none_iff (openMarker k.name) T).1 (not_not.2 h))
  have ha := Text.not_infix_of_cut? (List.cons_ne_nil _ _) hcut
  have hfront : ¬ openMarker k.name <:+: openMarker "template" ++ '>' :: a :=
    (infix_opening_iff hk (openMarker_mem k)).not.2 ha
  obtain rfl := Text.eq_of_cut?_eq_some hcut
  by_cases hb : '>' ∈ b
  · obtain ⟨b₁, b₂, rfl, hb₁⟩ := List.eq_append_cons_of_mem hb
    refine ⟨b₁, b₂ ++ (closeMarker "template" ++ mid), ?_, ?_⟩
    · exact ⟨a ++ openMarker k.name ++ b₁ ++ ['>'], by simp⟩
    · have hopened := opened?_append hfront hb₁ (b₂ ++ (closeMarker "template" ++ (mid ++ own)))
      simpa using hopened
  · have hattr : '>' ∉ b ++ "</template".toList := by
      rw [List.mem_append, not_or]
      exact ⟨hb, by decide⟩
    have hclose : closeMarker "template" = "</template".toList ++ ['>'] := rfl
    refine ⟨b ++ "</template".toList, mid, ?_, ?_⟩
    · rw [← List.append_assoc]
      exact List.suffix_append _ _
    · have hopened := opened?_append hfront hattr (mid ++ own)
      rw [hclose]
      simpa using hopened

end

/-! ### A block behind a template -/

/-- A block without attributes, and nothing behind it. -/
def bare (k : Tag) (body : Text) : Piece := ⟨k, ⟨[], body⟩, []⟩

/-- A component in which a block stands behind a template, with other pieces between. -/
def behind (k : Tag) (template : Text) (between : List Piece) (body : Text) (back : List Piece) :
    Text :=
  assemble [] (bare .template template :: (between ++ bare k body :: back))

/-- The block is no template, its closing tag comes neither in the template nor in itself, and what
is between are whole pieces of other kinds. -/
structure Behind (k : Tag) (template : Text) (between : List Piece) (body : Text) : Prop where
  flat : k ≠ .template
  template : ¬ closeMarker k.name <:+: template
  fits : ∀ p ∈ between, p.Fits
  other : ∀ p ∈ between, k ≠ p.tag
  body : ¬ closeMarker k.name <:+: body

section

variable {k : Tag} {T body : Text} {between : List Piece}

theorem behind_eq (back : List Piece) : behind k T between body back =
    openMarker "template" ++ '>' :: (T ++ (closeMarker "template" ++ (textOf between ++
      (openMarker k.name ++ '>' :: (body ++ (closeMarker k.name ++ textOf back)))))) := by
  simp [behind, assemble, textOf, bare, Piece.text, Piece.opening, Piece.closing, Tag.name]

/-- A block goes up to the first closing tag behind its opening tag. -/
theorem block?_of_opened? {t attributes : Text} (rest : Text)
    (hopened : opened? k.name t = some (attributes, body ++ (closeMarker k.name ++ rest)))
    (hbody : ¬ closeMarker k.name <:+: body) : block? k.name t = some ⟨attributes, body⟩ := by
  have hstart : (closeMarker k.name ++ rest).Starts := Text.starts_cons _
  have hcut := Text.cut?_append (isTag_of_mem_markers (closeMarker_mem k)) hbody hstart
  rw [Text.cut?_marker_append] at hcut
  rw [block?, hopened, Option.bind_some]
  show ((closeMarker k.name).cut? _).map _ = _
  rw [hcut]
  simp

/-- The block is found if no tag of the template is taken for its own. -/
theorem Behind.block? (h : Behind k T between body) (hT : ∀ n ∈ tagNames T, ¬ k.name.toList <+: n)
    (back : List Piece) : block? k.name (behind k T between body back) = some ⟨[], body⟩ := by
  have hopen := openMarker_mem k
  have hfront : ¬ openMarker k.name <:+:
      openMarker "template" ++ '>' :: (T ++ (closeMarker "template" ++ textOf between)) := by
    rw [infix_opening_iff h.flat hopen, infix_closing_iff h.flat hopen (starts_textOf between),
      not_or, infix_iff_exists_tagName]
    push Not
    exact ⟨hT, not_infix_textOf h.fits h.other hopen⟩
  have hnone : '>' ∉ ([] : Text) := List.not_mem_nil
  have hopened := opened?_append hfront hnone
    (body ++ (closeMarker k.name ++ textOf back))
  rw [behind_eq]
  exact block?_of_opened? (textOf back) (by simpa using hopened) h.body

/-- Otherwise a longer block is found: it begins in the template and has the whole block in it. -/
theorem Behind.exists_longer (h : Behind k T between body) {n : Text} (hn : n ∈ tagNames T)
    (hname : k.name.toList <+: n) (back : List Piece) :
    ∃ b, Component.block? k.name (behind k T between body back) = some b ∧
      body.length < b.body.length := by
  have hclose := closeMarker_mem k
  have htag := isTag_of_mem_markers hclose
  obtain ⟨attributes, x, hx, hopened⟩ := opened?_within h.flat
    (infix_iff_exists_tagName.2 ⟨n, hn, hname⟩) (textOf between)
    (openMarker k.name ++ '>' :: (body ++ (closeMarker k.name ++ textOf back)))
  have hxclose : ¬ closeMarker k.name <:+: x := by
    intro hinfix
    have hmem := hinfix.trans hx.isInfix
    rw [infix_closing_iff h.flat hclose (starts_textOf between)] at hmem
    exact hmem.elim h.template (not_infix_textOf h.fits h.other hclose)
  have hown : ¬ closeMarker k.name <:+: openMarker k.name ++ '>' :: body := by
    have hopen : openMarker k.name ++ '>' :: body
        = '<' :: ((k.name.toList ++ ['>']) ++ body) := by simp [openMarker]
    have hpre : ¬ closeMarker k.name <+: '<' :: ((k.name.toList ++ ['>']) ++ body) := by
      cases k <;> simp [closeMarker, Tag.name]
    have hbracket : '<' ∉ k.name.toList ++ ['>'] := by cases k <;> decide
    rw [hopen, tag_infix_cons_append htag hbracket, not_or]
    exact ⟨hpre, h.body⟩
  have hstart : (openMarker k.name ++ '>' :: body).Starts := Text.starts_cons _
  have hlong : ¬ closeMarker k.name <:+: x ++ (openMarker k.name ++ '>' :: body) := by
    rw [Text.tag_infix_append_iff htag hstart, not_or]
    exact ⟨hxclose, hown⟩
  have hfound := block?_of_opened? (textOf back) (by simpa using hopened) hlong
  rw [behind_eq]
  refine ⟨_, hfound, ?_⟩
  simp only [List.length_append, List.length_cons]
  omega

/-- **Which tags of a template matter to a later block**: those whose names begin with its own. -/
theorem Behind.body_iff (h : Behind k T between body) (back : List Piece) :
    (Component.block? k.name (behind k T between body back)).map (·.body) = some body ↔
      ∀ n ∈ tagNames T, ¬ k.name.toList <+: n := by
  constructor
  · intro hbody n hn hname
    obtain ⟨b, hb, hlt⟩ := h.exists_longer hn hname back
    rw [hb, Option.map_some, Option.some.injEq] at hbody
    rw [hbody] at hlt
    exact Nat.lt_irrefl _ hlt
  · intro hT
    rw [h.block? hT back]
    rfl

end

/-! ### Components with a template -/

theorem exists_mem_markers {k : Tag} {m : Text} (h : m ∈ k.excluded) : ∃ j : Tag, m ∈ j.markers := by
  cases k <;> simp only [Tag.excluded, List.mem_append] at h
  · exact h.elim (fun h => ⟨_, h⟩) fun h => ⟨_, h⟩
  · exact h.elim (fun h => h.elim (fun h => ⟨_, h⟩) fun h => ⟨_, h⟩) fun h => ⟨_, h⟩
  · exact h.elim (fun h => h.elim (fun h => ⟨_, h⟩) fun h => ⟨_, h⟩) fun h => ⟨_, h⟩

theorem fits_bare {k : Tag} {body : Text} (hbody : Plain body) : (bare k body).Fits where
  attributes := ⟨List.not_mem_nil, List.not_mem_nil⟩
  body := by
    intro m hm
    obtain ⟨j, hj⟩ := exists_mem_markers hm
    exact hbody j m hj
  after := (by decide : Plain [])

/-- A component of a template, a script and a style block. -/
def templated (template script style : Text) : Text :=
  assemble [] [bare .template template, bare .script script, bare .style style]

section

variable {T S C : Text}

theorem behind_script (hT : ¬ closeMarker "script" <:+: T) (hS : Plain S) :
    Behind .script T [] S where
  flat := by decide
  template := hT
  fits := List.forall_mem_nil _
  other := List.forall_mem_nil _
  body := hS .script _ (closeMarker_mem .script)

theorem behind_style (hT : ¬ closeMarker "style" <:+: T) (hS : Plain S) (hC : Plain C) :
    Behind .style T [bare .script S] C where
  flat := by decide
  template := hT
  fits := by
    intro p hp
    rw [List.mem_singleton.1 hp]
    exact fits_bare hS
  other := by
    intro p hp
    rw [List.mem_singleton.1 hp]
    exact (by decide : Tag.style ≠ Tag.script)
  body := hC .style _ (closeMarker_mem .style)

/-- **A template leaves the other blocks alone** if no tag in it has a name that begins with `script`
or `style`.  A tag with a name that begins with `script` is taken for the opening tag of the script,
so that the script found is another one. -/
theorem ofText_templated (hS : Plain S) (hC : Plain C) (hscript : ¬ closeMarker "script" <:+: T)
    (hstyle : ¬ closeMarker "style" <:+: T) :
    let facts := ComponentFacts.ofText (templated T S C)
    let alone := ComponentFacts.ofText (templated [] S C)
    ((∀ n ∈ tagNames T, ¬ "script".toList <+: n) →
      facts.script = alone.script ∧ facts.name = alone.name ∧ facts.methods = alone.methods) ∧
    ((∀ n ∈ tagNames T, ¬ "style".toList <+: n) → facts.styleRules = alone.styleRules) ∧
    ((∃ n ∈ tagNames T, "script".toList <+: n) → facts.script ≠ alone.script) := by
  intro facts alone
  have hempty : ∀ m : Text, m ≠ [] → ¬ m <:+: [] := fun m hm h => hm (List.infix_nil.1 h)
  have hscriptAlone : block? "script" (templated [] S C) = some ⟨[], S⟩ :=
    (behind_script (hempty _ (List.cons_ne_nil _ _)) hS).block? (List.forall_mem_nil _)
      [bare .style C]
  have hstyleAlone : block? "style" (templated [] S C) = some ⟨[], C⟩ :=
    (behind_style (hempty _ (List.cons_ne_nil _ _)) hS hC).block? (List.forall_mem_nil _) []
  refine ⟨fun hT => ?_, fun hT => ?_, ?_⟩
  · have hblock : block? "script" (templated T S C) = some ⟨[], S⟩ :=
      (behind_script hscript hS).block? hT [bare .style C]
    simp only [facts, alone, ComponentFacts.ofText, hblock, hscriptAlone, and_self]
  · have hblock : block? "style" (templated T S C) = some ⟨[], C⟩ :=
      (behind_style hstyle hS hC).block? hT []
    simp only [facts, alone, ComponentFacts.ofText, hblock, hstyleAlone]
  · rintro ⟨n, hn, hname⟩ heq
    obtain ⟨b, hb, hlt⟩ := (behind_script hscript hS).exists_longer hn hname [bare .style C]
    have hblock : block? "script" (templated T S C) = some b := hb
    simp only [facts, alone, ComponentFacts.ofText, hblock, hscriptAlone, Option.map_some,
      Option.some.injEq, ScriptBlock.mk.injEq] at heq
    rw [heq.1] at hlt
    exact Nat.lt_irrefl _ hlt

end

/-- A script and a style block. -/
def cartScript : Text := "name: \"Cart\", add() \x7b \x7d".toList

def cartStyle : Text := ".a \x7b color: red \x7d".toList

theorem ofText_templated_slots :
    let T := "<my-script #style>x() \x7b</my-script>\n<template lang=\"ts\">".toList
    (∀ n ∈ tagNames T, ¬ "script".toList <+: n ∧ ¬ "style".toList <+: n) ∧
      (ComponentFacts.ofText (templated T cartScript cartStyle)).methods = [⟨"add".toList, 14⟩] ∧
      (ComponentFacts.ofText (templated T cartScript cartStyle)).styleRules = some 1 := by
  intro T
  have htags : ∀ n ∈ tagNames T, ¬ "script".toList <+: n ∧ ¬ "style".toList <+: n := by
    decide +kernel
  have hempty : (ComponentFacts.ofText (templated [] cartScript cartStyle)).methods
        = [⟨"add".toList, 14⟩] ∧
      (ComponentFacts.ofText (templated [] cartScript cartStyle)).styleRules = some 1 := by
    decide +kernel
  obtain ⟨hscript, hstyle, -⟩ := ofText_templated (T := T) (S := cartScript) (C := cartStyle)
    (by decide) (by decide) (by decide +kernel) (by decide +kernel)
  obtain ⟨-, -, hmethods⟩ := hscript fun n hn => (htags n hn).1
  refine ⟨htags, ?_, ?_⟩
  · rw [hmethods, hempty.1]
  · rw [hstyle fun n hn => (htags n hn).2, hempty.2]

/-- Custom elements: their names begin with `script` and with `style`, but go on. -/
def elements : Text := "<script-loader/><style-guide/>".toList

/-- A custom element in the template changes what is found of the script and the style block. -/
theorem ofText_templated_elements :
    (∀ n ∈ tagNames elements, n ≠ "script".toList ∧ n ≠ "style".toList) ∧
      Plain cartScript ∧ Plain cartStyle ∧
      ¬ closeMarker "script" <:+: elements ∧ ¬ closeMarker "style" <:+: elements ∧
      let facts := ComponentFacts.ofText (templated elements cartScript cartStyle)
      let alone := ComponentFacts.ofText (templated [] cartScript cartStyle)
      facts.script ≠ alone.script ∧ facts.methods ≠ alone.methods
        ∧ facts.styleRules ≠ alone.styleRules := by
  decide +kernel

end Outline.Component
