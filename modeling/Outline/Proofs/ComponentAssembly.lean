import Mathlib.Data.List.Infix
import Outline.Component
import Outline.Proofs.Markers

/-!
# Components put together from blocks

A component is assembled from a template, a script and a style block, or some of these, in any
order and with any filler between them.  The scan finds the blocks again.

* `Component.Tag` — the three kinds of blocks;
* `Component.Piece`, `Component.assemble` — a block with the filler behind it, and a whole text;
* `Component.Fitting` — no block or filler holds a marker that would be taken for another's;
* `Component.block?_assemble`, `Component.widestBlock?_assemble` — each scan finds its block;
* `Component.ofText_assemble` — the facts are those of the blocks, whatever their order.
-/

namespace Outline.Component

/-! ### Assembled texts -/

/-- The kinds of blocks. -/
inductive Tag where
  | template
  | script
  | style
deriving DecidableEq

def Tag.name : Tag → String
  | .template => "template"
  | .script => "script"
  | .style => "style"

/-- The two markers of a kind of blocks. -/
def Tag.markers (k : Tag) : List Text := [openMarker k.name, closeMarker k.name]

/-- The markers that a block of this kind must not hold: a template may hold templates, all other
blocks are flat. -/
def Tag.excluded : Tag → List Text
  | .template => Tag.script.markers ++ Tag.style.markers
  | _ => Tag.template.markers ++ Tag.script.markers ++ Tag.style.markers

/-- A text without any of the six markers. -/
def Plain (t : Text) : Prop := ∀ k : Tag, ∀ m ∈ k.markers, ¬ m <:+: t

/-- A block, and the filler behind it. -/
structure Piece where
  tag : Tag
  block : Block
  after : Text

namespace Piece

/-- The opening tag and the text of the block. -/
def opening (p : Piece) : Text :=
  openMarker p.tag.name ++ (p.block.attributes ++ '>' :: p.block.body)

/-- The closing tag and the filler. -/
def closing (p : Piece) : Text := closeMarker p.tag.name ++ p.after

def text (p : Piece) : Text := p.opening ++ p.closing

/-- What identifies a piece but for its filler. -/
def key (p : Piece) : Tag × Block := (p.tag, p.block)

/-- The parts of a piece hold nothing that could be taken for a marker of another. -/
structure Fits (p : Piece) : Prop where
  attributes : '<' ∉ p.block.attributes ∧ '>' ∉ p.block.attributes
  body : ∀ m ∈ p.tag.excluded, ¬ m <:+: p.block.body
  after : Plain p.after

end Piece

/-- The texts of pieces, one behind the other. -/
def textOf (pieces : List Piece) : Text := pieces.flatMap Piece.text

/-- A text put together from pieces, with a filler before them. -/
def assemble (before : Text) (pieces : List Piece) : Text := before ++ textOf pieces

/-- The pieces fit, and no two are of one kind. -/
structure Fitting (before : Text) (pieces : List Piece) : Prop where
  plain : Plain before
  fits : ∀ p ∈ pieces, p.Fits
  distinct : (pieces.map (·.tag)).Nodup

theorem plain_iff {t : Text} :
    Plain t ↔ ∀ k ∈ [Tag.template, .script, .style], ∀ m ∈ k.markers, ¬ m <:+: t := by
  constructor
  · exact fun h k _ => h k
  · intro h k
    apply h
    cases k <;> decide

instance (t : Text) : Decidable (Plain t) := decidable_of_iff' _ plain_iff

theorem Piece.fits_iff {p : Piece} : p.Fits ↔
    ('<' ∉ p.block.attributes ∧ '>' ∉ p.block.attributes) ∧
      (∀ m ∈ p.tag.excluded, ¬ m <:+: p.block.body) ∧ Plain p.after :=
  ⟨fun h => ⟨h.attributes, h.body, h.after⟩, fun h => ⟨h.1, h.2.1, h.2.2⟩⟩

instance (p : Piece) : Decidable p.Fits := decidable_of_iff' _ Piece.fits_iff

theorem fitting_iff {before : Text} {pieces : List Piece} : Fitting before pieces ↔
    Plain before ∧ (∀ p ∈ pieces, p.Fits) ∧ (pieces.map (·.tag)).Nodup :=
  ⟨fun h => ⟨h.plain, h.fits, h.distinct⟩, fun h => ⟨h.1, h.2.1, h.2.2⟩⟩

instance (before : Text) (pieces : List Piece) : Decidable (Fitting before pieces) :=
  decidable_of_iff' _ fitting_iff

/-- The block of a kind, if there is one. -/
def blockOf (k : Tag) (pieces : List Piece) : Option Block :=
  (pieces.find? (·.tag = k)).map (·.block)

/-! ### Markers in a piece -/

theorem isTag_of_mem_markers {k : Tag} {m : Text} (h : m ∈ k.markers) : m.IsTag := by
  cases k <;> simp only [Tag.markers, List.mem_cons, List.not_mem_nil, or_false] at h <;>
    rcases h with rfl | rfl <;> exact ⟨_, rfl, by decide⟩

theorem starts_text (p : Piece) : p.text.Starts := Text.starts_cons _

theorem starts_textOf (pieces : List Piece) : (textOf pieces).Starts := by
  induction pieces with
  | nil => exact Text.starts_nil
  | cons p ps ih => exact (starts_text p).append ih

theorem openMarker_mem (k : Tag) : openMarker k.name ∈ k.markers := List.mem_cons_self

theorem closeMarker_mem (k : Tag) : closeMarker k.name ∈ k.markers :=
  List.mem_cons_of_mem _ List.mem_cons_self

/-- What a block must not hold are the markers of all other kinds, and, unless it is a template,
its own. -/
theorem mem_excluded {j k : Tag} (h : k ≠ j ∨ j ≠ .template) :
    ∀ m ∈ k.markers, m ∈ j.excluded := by
  revert h
  cases j <;> cases k <;> decide

theorem not_prefix_marker {j k : Tag} (h : k ≠ j) :
    ∀ m ∈ k.markers, ∀ m' ∈ j.markers, ¬ m <+: m' ∧ ¬ m' <+: m := by
  revert h
  cases j <;> cases k <;> decide

theorem not_prefix_marker_append {j k : Tag} (h : k ≠ j) {m m' : Text} (hm : m ∈ k.markers)
    (hm' : m' ∈ j.markers) (r : Text) : ¬ m <+: m' ++ r := by
  intro hpre
  obtain ⟨h1, h2⟩ := not_prefix_marker h m hm m' hm'
  rcases List.prefix_or_prefix_of_prefix hpre (List.prefix_append m' r) with hp | hp
  · exact h1 hp
  · exact h2 hp

theorem tag_infix_cons_append {m a r : Text} (hm : m.IsTag) (ha : '<' ∉ a) :
    m <:+: '<' :: (a ++ r) ↔ m <+: '<' :: (a ++ r) ∨ m <:+: r := by
  rw [List.infix_cons_iff, Text.tag_infix_append_of_not_mem hm ha]

/-- **No piece holds a marker of another kind**, inside its parts or across their seams. -/
theorem not_infix_text {p : Piece} (hp : p.Fits) {k : Tag} (hk : k ≠ p.tag) {m : Text}
    (hm : m ∈ k.markers) : ¬ m <:+: p.text := by
  have htag := isTag_of_mem_markers hm
  have hstart : p.closing.Starts := Text.starts_cons _
  rw [Piece.text, Text.tag_infix_append_iff htag hstart, not_or]
  constructor
  · have hname : '<' ∉ p.tag.name.toList ++ (p.block.attributes ++ ['>']) := by
      have hattr := hp.attributes.1
      cases p.tag <;> simp [Tag.name, hattr]
    have hopen : p.opening = '<' ::
        ((p.tag.name.toList ++ (p.block.attributes ++ ['>'])) ++ p.block.body) := by
      simp [Piece.opening, openMarker]
    have hpre : ¬ m <+: p.opening := not_prefix_marker_append hk hm (openMarker_mem p.tag) _
    rw [hopen, tag_infix_cons_append htag hname, ← hopen, not_or]
    exact ⟨hpre, hp.body m (mem_excluded (Or.inl hk) m hm)⟩
  · have hname : '<' ∉ '/' :: p.tag.name.toList ++ ['>'] := by
      cases p.tag <;> decide
    have hclose : p.closing = '<' :: (('/' :: p.tag.name.toList ++ ['>']) ++ p.after) := by
      simp [Piece.closing, closeMarker]
    have hpre : ¬ m <+: p.closing := not_prefix_marker_append hk hm (closeMarker_mem p.tag) _
    rw [hclose, tag_infix_cons_append htag hname, ← hclose, not_or]
    exact ⟨hpre, hp.after k m hm⟩

theorem not_infix_textOf {pieces : List Piece} (hfit : ∀ p ∈ pieces, p.Fits) {k : Tag}
    (hne : ∀ p ∈ pieces, k ≠ p.tag) {m : Text} (hm : m ∈ k.markers) : ¬ m <:+: textOf pieces := by
  have htag := isTag_of_mem_markers hm
  induction pieces with
  | nil =>
    intro h
    exact List.not_mem_nil (h.mem htag.mem)
  | cons p ps ih =>
    show ¬ m <:+: p.text ++ textOf ps
    rw [Text.tag_infix_append_iff htag (starts_textOf ps), not_or]
    constructor
    · exact not_infix_text (hfit p List.mem_cons_self) (hne p List.mem_cons_self) hm
    · exact ih (fun q hq => hfit q (List.mem_cons_of_mem p hq))
        fun q hq => hne q (List.mem_cons_of_mem p hq)

/-- Between pieces of other kinds and behind a filler there is no marker. -/
theorem not_infix_append_textOf {t : Text} (ht : Plain t) {pieces : List Piece}
    (hfit : ∀ p ∈ pieces, p.Fits) {k : Tag} (hne : ∀ p ∈ pieces, k ≠ p.tag) {m : Text}
    (hm : m ∈ k.markers) : ¬ m <:+: t ++ textOf pieces := by
  rw [Text.tag_infix_append_iff (isTag_of_mem_markers hm) (starts_textOf pieces), not_or]
  exact ⟨ht k m hm, not_infix_textOf hfit hne hm⟩

/-! ### The scan of one kind -/

/-- The first opening tag, behind a text without one. -/
theorem opened?_append {k : Tag} {s attributes : Text} (hs : ¬ openMarker k.name <:+: s)
    (ha : '>' ∉ attributes) (inside : Text) :
    opened? k.name (s ++ (openMarker k.name ++ (attributes ++ '>' :: inside)))
      = some (attributes, inside) := by
  have htag := isTag_of_mem_markers (openMarker_mem k)
  have hstart : (openMarker k.name ++ (attributes ++ '>' :: inside)).Starts := Text.starts_cons _
  have hcut : Text.cut? (openMarker k.name)
      (s ++ (openMarker k.name ++ (attributes ++ '>' :: inside)))
      = some (s ++ [], attributes ++ '>' :: inside) := by
    rw [Text.cut?_append htag hs hstart, Text.cut?_marker_append]
    rfl
  rw [opened?, hcut]
  exact Text.cut?_singleton ha inside

theorem opened?_eq_none {k : Tag} {t : Text} (h : ¬ openMarker k.name <:+: t) :
    opened? k.name t = none := by
  rw [opened?, (Text.cut?_eq_none_iff _ _).2 h]
  rfl

section Assembled

variable {before : Text} {pieces : List Piece} {k : Tag}

/-- The piece of a kind stands between pieces of other kinds. -/
theorem split_of_find? (h : Fitting before pieces) {p : Piece}
    (hp : pieces.find? (·.tag = k) = some p) :
    ∃ front back, pieces = front ++ p :: back ∧ p.tag = k
      ∧ (∀ q ∈ front, k ≠ q.tag) ∧ ∀ q ∈ back, k ≠ q.tag := by
  obtain ⟨htag, front, back, rfl, hfront⟩ := List.find?_eq_some_iff_append.1 hp
  have htag : p.tag = k := of_decide_eq_true htag
  refine ⟨front, back, rfl, htag, ?_, ?_⟩
  · intro q hq hk
    have hne := hfront q hq
    rw [← hk] at hne
    simp at hne
  · intro q hq hk
    have hdistinct := h.distinct
    rw [List.map_append, List.map_cons] at hdistinct
    have hcons := (List.nodup_append.1 hdistinct).2.1
    have hnot := (List.nodup_cons.1 hcons).1
    rw [htag, hk] at hnot
    exact hnot (List.mem_map_of_mem hq)

/-- The scan of a kind enters its piece, and behind the piece meets only other kinds. -/
theorem opened?_assemble (h : Fitting before pieces) {p : Piece}
    (hp : pieces.find? (·.tag = k) = some p) :
    ∃ back : List Piece, (∀ q ∈ back, q ∈ pieces ∧ k ≠ q.tag)
      ∧ opened? k.name (assemble before pieces) = some (p.block.attributes,
          p.block.body ++ (closeMarker k.name ++ (p.after ++ textOf back))) := by
  obtain ⟨front, back, rfl, htag, hfront, hback⟩ := split_of_find? h hp
  have hfits := h.fits p (List.mem_append_right front List.mem_cons_self)
  have hmem : ∀ q ∈ back, q ∈ front ++ p :: back := fun q hq =>
    List.mem_append_right front (List.mem_cons_of_mem p hq)
  refine ⟨back, fun q hq => ⟨hmem q hq, hback q hq⟩, ?_⟩
  have hs : ¬ openMarker k.name <:+: before ++ textOf front := by
    apply not_infix_append_textOf h.plain _ hfront (openMarker_mem k)
    exact fun q hq => h.fits q (List.mem_append_left _ hq)
  have hsplit : assemble before (front ++ p :: back)
      = (before ++ textOf front) ++ (openMarker k.name ++ (p.block.attributes ++ '>' ::
          (p.block.body ++ (closeMarker k.name ++ (p.after ++ textOf back))))) := by
    simp [assemble, textOf, Piece.text, Piece.opening, Piece.closing, htag]
  rw [hsplit]
  exact opened?_append hs hfits.attributes.2 _

/-- Without a piece of the kind, the scan finds no opening tag. -/
theorem opened?_assemble_eq_none (h : Fitting before pieces)
    (hp : pieces.find? (·.tag = k) = none) : opened? k.name (assemble before pieces) = none := by
  have hne : ∀ q ∈ pieces, k ≠ q.tag := by
    intro q hq hk
    have hnot := List.find?_eq_none.1 hp q hq
    rw [hk] at hnot
    simp at hnot
  exact opened?_eq_none (not_infix_append_textOf h.plain h.fits hne (openMarker_mem k))

/-- **A flat block is found**, up to its closing tag: the body holds no other. -/
theorem block?_assemble (h : Fitting before pieces) (hk : k ≠ .template) :
    block? k.name (assemble before pieces) = blockOf k pieces := by
  cases hp : pieces.find? (·.tag = k) with
  | none =>
    rw [block?, opened?_assemble_eq_none h hp, blockOf, hp]
    rfl
  | some p =>
    obtain ⟨back, -, hopened⟩ := opened?_assemble h hp
    have htag : p.tag = k := by simpa using List.find?_some hp
    have hbody := (h.fits p (List.mem_of_find?_eq_some hp)).body
    have hclose : ¬ closeMarker k.name <:+: p.block.body := by
      apply hbody
      rw [htag]
      exact mem_excluded (Or.inr hk) _ (closeMarker_mem k)
    have hstart : (closeMarker k.name ++ (p.after ++ textOf back)).Starts := Text.starts_cons _
    have hcut := Text.cut?_append (isTag_of_mem_markers (closeMarker_mem k)) hclose hstart
    rw [Text.cut?_marker_append] at hcut
    rw [block?, hopened, Option.bind_some]
    show ((closeMarker k.name).cut? _).map _ = _
    rw [hcut, blockOf, hp]
    simp

/-- **A template is found**, up to its last closing tag: behind it there is no other. -/
theorem widestBlock?_assemble (h : Fitting before pieces) :
    widestBlock? k.name (assemble before pieces) = blockOf k pieces := by
  cases hp : pieces.find? (·.tag = k) with
  | none =>
    rw [widestBlock?, opened?_assemble_eq_none h hp, blockOf, hp]
    rfl
  | some p =>
    obtain ⟨back, hback, hopened⟩ := opened?_assemble h hp
    have hafter := (h.fits p (List.mem_of_find?_eq_some hp)).after
    have hclose : ¬ closeMarker k.name <:+: p.after ++ textOf back :=
      not_infix_append_textOf hafter (fun q hq => h.fits q (hback q hq).1)
        (fun q hq => (hback q hq).2) (closeMarker_mem k)
    have hcut := Text.cutLast?_append (isTag_of_mem_markers (closeMarker_mem k)) hclose
      p.block.body
    rw [widestBlock?, hopened, Option.bind_some]
    show ((closeMarker k.name).cutLast? _).map _ = _
    rw [hcut, blockOf, hp]
    rfl

/-! ### The order of the blocks -/

theorem blockOf_eq_some_iff (hdistinct : (pieces.map (·.tag)).Nodup) {b : Block} :
    blockOf k pieces = some b ↔ (k, b) ∈ pieces.map Piece.key := by
  induction pieces with
  | nil => simp [blockOf]
  | cons p ps ih =>
    rw [List.map_cons, List.nodup_cons] at hdistinct
    rw [List.map_cons, List.mem_cons]
    by_cases htag : p.tag = k
    · have hfind : blockOf k (p :: ps) = some p.block := by simp [blockOf, htag]
      have hnot : (k, b) ∉ ps.map Piece.key := by
        intro hmem
        obtain ⟨q, hq, hkey⟩ := List.mem_map.1 hmem
        have hqtag : q.tag = k := congrArg Prod.fst hkey
        apply hdistinct.1
        rw [htag, ← hqtag]
        exact List.mem_map_of_mem hq
      rw [hfind, Option.some.injEq, or_iff_left hnot, Piece.key, htag, Prod.mk.injEq]
      exact ⟨fun hb => ⟨rfl, hb.symm⟩, fun hb => hb.2.symm⟩
    · have hfind : blockOf k (p :: ps) = blockOf k ps := by simp [blockOf, htag]
      have hne : (k, b) ≠ p.key := fun hb => htag (congrArg Prod.fst hb).symm
      rw [hfind, ih hdistinct.2, or_iff_right hne]

/-- The blocks found depend neither on their order nor on the fillers. -/
theorem blockOf_congr {pieces' : List Piece} (hdistinct : (pieces.map (·.tag)).Nodup)
    (hperm : (pieces'.map Piece.key).Perm (pieces.map Piece.key)) :
    blockOf k pieces' = blockOf k pieces := by
  have htags : ∀ ps : List Piece, ps.map (·.tag) = (ps.map Piece.key).map Prod.fst := by
    intro ps
    rw [List.map_map]
    rfl
  have hdistinct' : (pieces'.map (·.tag)).Nodup := by
    rw [htags] at hdistinct ⊢
    exact ((hperm.map Prod.fst).nodup_iff).2 hdistinct
  ext b
  rw [blockOf_eq_some_iff hdistinct', blockOf_eq_some_iff hdistinct, hperm.mem_iff]

end Assembled

/-! ### The facts of the blocks -/

/-- The opening tags of a text: the places where a letter follows an angle bracket. -/
def openTags (t : Text) : Nat := (t.zip t.tail).countP fun p => p.1 = '<' && p.2.isAlpha

theorem countOpenTags_eq (t : Text) : countOpenTags t = openTags t := by
  induction t with
  | nil => rfl
  | cons c r ih =>
    have hcons : openTags (c :: r)
        = (if c = '<' ∧ r.head?.any Char.isAlpha then 1 else 0) + openTags r := by
      cases r with
      | nil => simp [openTags]
      | cons d r =>
        rw [openTags, List.tail_cons, List.zip_cons_cons, List.countP_cons, Nat.add_comm]
        by_cases hd : c = '<' ∧ d.isAlpha
        · simp [hd, openTags]
        · simp [hd, openTags]
    rw [hcons, ← ih]
    by_cases hc : c = '<'
    · rw [hc, countOpenTags]
      simp
    · rw [countOpenTags]
      · simp [hc]
      · exact hc

/-- The facts that blocks stand for. -/
def factsOf (blocks : Tag → Option Block) : ComponentFacts where
  templateElements := (blocks .template).map fun b => openTags b.body
  name := (blocks .script).map fun b => (Script.name? b.body).getD anonymous
  methods := ((blocks .script).map fun b => Script.methods b.body).getD []
  styleRules := (blocks .style).map fun b => (Stylesheet.rules b.body).length
  script := (blocks .script).map fun b => ⟨b.body, Script.isTyped b.attributes⟩

theorem isTyped_space (a : Text) : Script.isTyped (' ' :: a) = Script.isTyped a := by
  have hhere : Script.typedHere? (' ' :: a) = none := rfl
  rw [Script.isTyped, Script.findWord?, if_neg (by decide), hhere]
  rfl

theorem ofText_eq_factsOf {before : Text} {pieces : List Piece} (h : Fitting before pieces) :
    ComponentFacts.ofText (assemble before pieces) = factsOf (blockOf · pieces) := by
  have htemplate : widestBlock? "template" (assemble before pieces) = blockOf .template pieces :=
    widestBlock?_assemble (k := .template) h
  have hscript : block? "script" (assemble before pieces) = blockOf .script pieces :=
    block?_assemble (k := .script) h (by decide)
  have hstyle : block? "style" (assemble before pieces) = blockOf .style pieces :=
    block?_assemble (k := .style) h (by decide)
  have hcount : (countOpenTags ·.body) = fun b : Block => openTags b.body := by
    funext b
    exact countOpenTags_eq b.body
  simp only [ComponentFacts.ofText, factsOf, htemplate, hscript, hstyle, hcount]

/-- **Scanning undoes assembly.**  The facts are those of the blocks put together, and of nothing
else: neither their order nor the fillers matter, and the script is typed where the attributes
say so, with or without a space before them. -/
theorem ofText_assemble {before : Text} {pieces : List Piece} (h : Fitting before pieces) :
    ComponentFacts.ofText (assemble before pieces) = factsOf (blockOf · pieces)
    ∧ (∀ {before' : Text} {pieces' : List Piece}, Fitting before' pieces' →
        (pieces'.map Piece.key).Perm (pieces.map Piece.key) →
        ComponentFacts.ofText (assemble before' pieces')
          = ComponentFacts.ofText (assemble before pieces))
    ∧ ∀ {a s : Text}, blockOf .script pieces = some ⟨' ' :: a, s⟩ →
        (ComponentFacts.ofText (assemble before pieces)).script
          = some ⟨s, Script.isTyped a⟩ := by
  have hfacts := ofText_eq_factsOf h
  refine ⟨hfacts, ?_, ?_⟩
  · intro before' pieces' h' hperm
    have hblocks : (blockOf · pieces') = (blockOf · pieces) := by
      funext k
      exact blockOf_congr h.distinct hperm
    rw [hfacts, ofText_eq_factsOf h', hblocks]
  · intro a s hscript
    rw [hfacts]
    show (blockOf .script pieces).map _ = _
    rw [hscript, ← isTyped_space]
    rfl

/-- Style first, then a template that holds another, then a typed script. -/
def mixedPieces : List Piece :=
  [⟨.style, ⟨" scoped".toList, ".a \x7b color: red \x7d".toList⟩, "a <sc".toList⟩,
   ⟨.template, ⟨[], "<div><template v-if>x</template></div>".toList⟩, "\n".toList⟩,
   ⟨.script, ⟨" lang=\"ts\"".toList, "name: \"Cart\", add() \x7b \x7d".toList⟩, []⟩]

theorem fitting_mixedPieces : Fitting "1 < 2".toList mixedPieces := by decide

theorem ofText_assemble_mixedPieces :
    Fitting "1 < 2".toList mixedPieces ∧ Fitting "1 < 2".toList mixedPieces.reverse
    ∧ ComponentFacts.ofText (assemble "1 < 2".toList mixedPieces)
      = ⟨some 2, some "Cart".toList, [⟨"add".toList, 14⟩], some 1,
          some ⟨"name: \"Cart\", add() \x7b \x7d".toList, true⟩⟩
    ∧ ComponentFacts.ofText (assemble "1 < 2".toList mixedPieces.reverse)
      = ComponentFacts.ofText (assemble "1 < 2".toList mixedPieces)
    ∧ (ComponentFacts.ofText (assemble "1 < 2".toList mixedPieces)).script
      = some ⟨"name: \"Cart\", add() \x7b \x7d".toList,
          Script.isTyped "lang=\"ts\"".toList⟩ := by
  have hreverse : Fitting "1 < 2".toList mixedPieces.reverse := by decide
  obtain ⟨hfacts, horder, htyped⟩ := ofText_assemble fitting_mixedPieces
  refine ⟨fitting_mixedPieces, hreverse, ?_, ?_, ?_⟩
  · rw [hfacts]
    decide +kernel
  · exact horder hreverse ((List.reverse_perm mixedPieces).map Piece.key)
  · exact htyped rfl

end Outline.Component
