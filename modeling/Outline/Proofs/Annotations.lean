import Mathlib.Data.List.Perm.Basic
import Outline.Proofs.TidyLines

/-!
# Annotations among modifiers

The modifiers of a type are keywords and annotations, in any order.  A line shows the keywords; of an
annotation it should show nothing.

* `Modifier`, `Modifier.WrittenAs` — such parts as data, and the texts they make with blanks between;
* `Modifier.stray` — the words of an annotation that are shown nevertheless: a word is taken for a part
  of an annotation by its first character alone, which only the first one needs to have;
* `Modifier.filter_words` — what is left of a text of modifiers: keywords and stray words;
* `Node.line?_of_modifiers` — the line of a type with modifiers, and when it shows nothing of its
  annotations;
* `Node.line?_of_spaced_arguments` — an annotation of which two words are shown.
-/

namespace Outline

open Text

/-- A part of the modifiers of a type. -/
inductive Modifier where
  | keyword (word : Text)
  /-- An annotation, with its arguments if there are parentheses. -/
  | note (name : Text) (arguments : Option Text)

namespace Modifier

variable {m : Modifier} {ms : List Modifier} {t : Text}

/-- How a modifier is written. -/
def text : Modifier → Text
  | .keyword word => word
  | .note name none => '@' :: name
  | .note name (some arguments) => '@' :: name ++ '(' :: arguments ++ [')']

/-- Keywords and the names of annotations are words without the characters that annotations are made
with; arguments hold no parentheses of their own. -/
inductive WellFormed : Modifier → Prop
  | keyword {word : Text} (hword : IsWord word) (hplain : ∀ c ∈ word, c ∉ ['@', '(', ')']) :
      WellFormed (.keyword word)
  | note {name : Text} {arguments : Option Text}
      (hname : ∀ c ∈ name, isBlank c = false ∧ c ∉ ['@', '(', ')'])
      (harguments : ∀ a ∈ arguments, ∀ c ∈ a, c ∉ ['(', ')']) :
      WellFormed (.note name arguments)

/-- A text is made of the modifiers, with blanks between them. -/
inductive WrittenAs : List Modifier → Text → Prop
  | nil {t : Text} : t.blank = true → WrittenAs [] t
  | cons {m : Modifier} {ms : List Modifier} {lead t : Text} : lead.blank = true → m.WellFormed →
      (∀ c ∈ t.head?, isBlank c = true) → WrittenAs ms t → WrittenAs (m :: ms) (lead ++ (m.text ++ t))

theorem writtenAs_note_keyword {name arguments word gap : Text}
    (hnote : WellFormed (.note name (some arguments)))
    (hkeyword : WellFormed (.keyword word)) (hgap : gap.blank = true) (hne : gap ≠ []) :
    WrittenAs [.note name (some arguments), .keyword word]
      ('@' :: name ++ '(' :: arguments ++ [')'] ++ (gap ++ word)) := by
  have hlast : WrittenAs [.keyword word] (gap ++ (word ++ [])) :=
    .cons hgap hkeyword (by simp) (.nil rfl)
  rw [List.append_nil] at hlast
  have hblank : blank [] = true := rfl
  refine .cons hblank hnote (fun c hc => ?_) hlast
  rw [List.head?_append_of_ne_nil gap hne] at hc
  exact List.all_eq_true.1 hgap c (List.mem_of_mem_head? hc)

/-! ### What is shown -/

def keyword? : Modifier → Option Text
  | .keyword word => some word
  | .note _ _ => none

/-- The words that arguments have behind their first blank; the parenthesis that closes them belongs to
the last one. -/
def laterWords (arguments : Text) : List Text :=
  words ((arguments ++ [')']).dropWhile fun c => !isBlank c)

/-- The words of an annotation that a line shows. -/
def stray : Modifier → List Text
  | .note _ (some arguments) => (laterWords arguments).filter fun w => w.head? ≠ some '@'
  | _ => []

/-- Nothing of an annotation is shown: its arguments have no blank, or each word behind one looks like
an annotation itself. -/
def Hidden : Modifier → Prop
  | .note _ (some arguments) => ∀ w ∈ laterWords arguments, w.head? = some '@'
  | _ => True

theorem stray_eq_nil_iff : m.stray = [] ↔ m.Hidden := by
  cases m with
  | keyword word => simp [stray, Hidden]
  | note name arguments =>
    cases arguments with
    | none => simp [stray, Hidden]
    | some a => simp [stray, Hidden, List.filter_eq_nil_iff]

/-- The words of one modifier that are left: the keyword, or stray words. -/
theorem filter_words_text (h : m.WellFormed) :
    ((words m.text).filter fun w => w.head? ≠ some '@') = m.keyword?.toList ++ m.stray := by
  cases h with
  | @keyword word hword hplain =>
    have hhead : word.head? ≠ some '@' := by
      intro hat
      exact hplain '@' (List.mem_of_mem_head? hat) (by decide)
    rw [text, hword.words_eq, List.filter_singleton]
    simp [hhead, keyword?, stray]
  | @note name arguments hname harguments =>
    cases arguments with
    | none =>
      have hword : IsWord ('@' :: name) :=
        ⟨List.cons_ne_nil _ _, List.forall_mem_cons.2 ⟨by decide, fun c hc => (hname c hc).1⟩⟩
      rw [text, hword.words_eq]
      rfl
    | some a =>
      -- the first word goes on to the first blank of the arguments
      have hfirst : IsWord ('@' :: name ++ '(' :: (a ++ [')']).takeWhile fun c => !isBlank c) := by
        refine ⟨List.cons_ne_nil _ _, List.forall_mem_append.2 ⟨?_, ?_⟩⟩
        · exact List.forall_mem_cons.2 ⟨by decide, fun c hc => (hname c hc).1⟩
        · refine List.forall_mem_cons.2 ⟨by decide, fun c hc => ?_⟩
          simpa using List.all_eq_true.1 List.all_takeWhile c hc
      have hrest : ∀ c ∈ ((a ++ [')']).dropWhile fun c => !isBlank c).head?, isBlank c = true := by
        intro c hc
        have hnot := List.head?_dropWhile_not (fun c => !isBlank c) (a ++ [')'])
        rw [hc] at hnot
        simpa using hnot
      have hsplit : text (.note name (some a)) =
          ('@' :: name ++ '(' :: (a ++ [')']).takeWhile fun c => !isBlank c) ++
            (a ++ [')']).dropWhile fun c => !isBlank c := by
        rw [List.append_assoc, List.cons_append, List.cons_append, List.takeWhile_append_dropWhile]
        simp [text]
      rw [hsplit, words_append hrest, hfirst.words_eq]
      rfl

/-- **What is left of a text of modifiers**: the keywords and the stray words, in their order. -/
theorem filter_words (h : WrittenAs ms t) :
    ((words t).filter fun w => w.head? ≠ some '@') = ms.flatMap fun m => m.keyword?.toList ++ m.stray := by
  induction h with
  | nil hblank =>
    have hwords := words_append_of_blank hblank []
    rw [List.append_nil] at hwords
    rw [hwords]
    rfl
  | cons hlead hm ht _ ih =>
    rw [words_append_of_blank hlead, words_append ht, List.filter_append, filter_words_text hm, ih,
      List.flatMap_cons]

theorem filter_flatMap_words {mss : List (List Modifier)} {ts : List Text}
    (h : List.Forall₂ WrittenAs mss ts) : ((ts.flatMap words).filter fun w => w.head? ≠ some '@') =
      mss.flatten.flatMap fun m => m.keyword?.toList ++ m.stray := by
  induction h with
  | nil => rfl
  | cons h _ ih =>
    rw [List.flatMap_cons, List.filter_append, filter_words h, ih, List.flatten_cons,
      List.flatMap_append]

/-- Only the keywords are left where all annotations are hidden. -/
theorem shown_eq_keywords_iff :
    (ms.flatMap fun m => m.keyword?.toList ++ m.stray) = ms.filterMap keyword? ↔
      ∀ m ∈ ms, m.Hidden := by
  have hkeywords : ms.filterMap keyword? = ms.flatMap fun m => m.keyword?.toList :=
    List.filterMap_eq_flatMap_toList keyword? ms
  constructor
  · intro h m hm
    have hlength := (List.flatMap_append_perm ms (fun m => m.keyword?.toList) stray).length_eq
    rw [h, hkeywords, List.length_append] at hlength
    have hnil : ms.flatMap stray = [] := List.length_eq_zero_iff.1 (by omega)
    exact stray_eq_nil_iff.1 (List.flatMap_eq_nil_iff.1 hnil m hm)
  · intro h
    rw [hkeywords]
    apply List.flatMap_congr
    intro m hm
    rw [stray_eq_nil_iff.2 (h m hm), List.append_nil]

end Modifier

/-! ### Lines -/

namespace Text

/-- Words in front of a text, each with a space behind it. -/
theorem intercalate_concat (ws : List Text) (t : Text) :
    [' '].intercalate (ws ++ [t]) = (ws.flatMap fun w => w ++ [' ']) ++ t := by
  induction ws with
  | nil =>
    rw [List.nil_append, List.intercalate_singleton]
    rfl
  | cons w ws ih =>
    rw [List.flatMap_cons, List.append_assoc, ← ih]
    cases ws with
    | nil => exact List.intercalate_cons_cons
    | cons u us => exact List.intercalate_cons_cons

theorem words_flatMap_concat {ws : List Text} (h : ∀ w ∈ ws, IsWord w) :
    words (ws.flatMap fun w => w ++ [' ']) = ws := by
  induction ws with
  | nil => rfl
  | cons w ws ih =>
    obtain ⟨hw, hws⟩ := List.forall_mem_cons.1 h
    rw [List.flatMap_cons, List.append_assoc, List.singleton_append, words_append_cons (by decide),
      hw.words_eq, ih hws]
    rfl

/-- Different words in front of a text make different texts. -/
theorem intercalate_concat_inj {ws ws' : List Text} {t : Text} (h : ∀ w ∈ ws, IsWord w)
    (h' : ∀ w ∈ ws', IsWord w) :
    [' '].intercalate (ws ++ [t]) = [' '].intercalate (ws' ++ [t]) ↔ ws = ws' := by
  constructor
  · intro heq
    rw [intercalate_concat, intercalate_concat, List.append_left_inj] at heq
    rw [← words_flatMap_concat h, heq, words_flatMap_concat h']
  · intro heq
    rw [heq]

end Text

namespace Node

open Modifier

variable {n : Node} {source name : Text}

/-- **What a type shows of its modifiers.**  The children that hold modifiers may be several; the text of
each is made of keywords and annotations.  The line shows the keywords and the stray words, in their
order, and the name.  It shows nothing of an annotation exactly if all are hidden. -/
theorem line?_of_modifiers (hrule : ruleOf n.kind = .typeLike) (hname : n.name? source = some name)
    {mss : List (List Modifier)}
    (hwritten : List.Forall₂ WrittenAs mss
      ((n.namedChildren.filter fun c => modifierKinds.contains c.kind).filterMap (·.text? source)))
    (signatures : Bool) :
    n.line? source signatures = some (labelled (labelOf n.kind) ([' '].intercalate
        ((mss.flatten.flatMap fun m => m.keyword?.toList ++ m.stray) ++ [name]))) ∧
      (n.line? source signatures = some (labelled (labelOf n.kind) ([' '].intercalate
        (mss.flatten.filterMap keyword? ++ [name]))) ↔ ∀ m ∈ mss.flatten, m.Hidden) := by
  have hmodifiers : n.modifiers source =
      mss.flatten.flatMap fun m => m.keyword?.toList ++ m.stray := filter_flatMap_words hwritten
  have hline : n.line? source signatures = some (labelled (labelOf n.kind) ([' '].intercalate
      ((mss.flatten.flatMap fun m => m.keyword?.toList ++ m.stray) ++ [name]))) := by
    rw [line?, hrule]
    show (n.typeLike? source).map _ = _
    rw [typeLike?, hname, hmodifiers]
    rfl
  refine ⟨hline, ?_⟩
  have hwords : ∀ w ∈ mss.flatten.flatMap fun m => m.keyword?.toList ++ m.stray, IsWord w := by
    rw [← hmodifiers]
    exact fun w => isWord_of_mem_modifiers
  have hkeywords : ∀ w ∈ mss.flatten.filterMap keyword?, IsWord w := by
    intro w hw
    obtain ⟨m, hm, hkeyword⟩ := List.mem_filterMap.1 hw
    apply hwords w
    exact List.mem_flatMap.2 ⟨m, hm, by simp [hkeyword]⟩
  have hlabelled : ∀ s t, labelled (labelOf n.kind) s = labelled (labelOf n.kind) t ↔ s = t := by
    simp [labelled]
  rw [hline, Option.some.injEq, hlabelled, intercalate_concat_inj hwords hkeywords,
    shown_eq_keywords_iff]

/-- A class with an annotation of three words, which all look like annotations. -/
def hiddenSource : Text := "@B(x, @C @D)\u2003final class N".toList

def hiddenType : Node :=
  ⟨0, "class_declaration", none, true, 0, 28,
    [⟨1, "modifiers", none, true, 0, 20, []⟩, ⟨2, "identifier", some "name", true, 27, 28, []⟩]⟩

def hiddenParts : List Modifier :=
  [.note ['B'] (some "x, @C @D".toList), .keyword "final".toList]

theorem writtenAs_hiddenParts : WrittenAs hiddenParts "@B(x, @C @D)\u2003final".toList :=
  writtenAs_note_keyword
    (.note (List.all_iff_forall_prop.1 rfl) (by simp))
    (.keyword ⟨by decide, List.all_iff_forall_prop.1 rfl⟩ (List.all_iff_forall_prop.1 rfl))
    (show blank ['\u2003'] = true from rfl) (by decide)

theorem line?_of_modifiers_hidden : ruleOf hiddenType.kind = .typeLike ∧
    hiddenType.name? hiddenSource = some ['N'] ∧
      hiddenType.line? hiddenSource true = some "Class: final N".toList := by
  have hname : hiddenType.name? hiddenSource = some ['N'] := by decide +kernel
  have htexts : (hiddenType.namedChildren.filter fun c => modifierKinds.contains c.kind).filterMap
      (·.text? hiddenSource) = ["@B(x, @C @D)\u2003final".toList] := by decide +kernel
  have hwritten : List.Forall₂ WrittenAs [hiddenParts] ((hiddenType.namedChildren.filter fun c =>
      modifierKinds.contains c.kind).filterMap (·.text? hiddenSource)) := by
    rw [htexts]
    exact .cons writtenAs_hiddenParts .nil
  have hstray : ∀ m ∈ hiddenParts, m.stray = [] := by decide
  refine ⟨by decide, hname, ?_⟩
  exact (line?_of_modifiers (by decide) hname hwritten true).2.2 fun m hm =>
    stray_eq_nil_iff.1 (hstray m hm)

/-- A class with an annotation that has a blank between its arguments. -/
def spacedSource : Text := "@Table(name = \"t\")\npublic class A".toList

def spacedType : Node :=
  ⟨0, "class_declaration", none, true, 0, 33,
    [⟨1, "modifiers", none, true, 0, 25, []⟩, ⟨2, "identifier", some "name", true, 32, 33, []⟩]⟩

def spacedParts : List Modifier :=
  [.note "Table".toList (some "name = \"t\"".toList), .keyword "public".toList]

theorem writtenAs_spacedParts : WrittenAs spacedParts "@Table(name = \"t\")\npublic".toList :=
  writtenAs_note_keyword
    (.note (List.all_iff_forall_prop.1 rfl) (by simp))
    (.keyword ⟨by decide, List.all_iff_forall_prop.1 rfl⟩ (List.all_iff_forall_prop.1 rfl))
    (show blank ['\n'] = true from rfl) (by decide)

/-- **Arguments with a blank are shown from there on.**  The modifiers of the class are an annotation and
the keyword `public`, and yet its line holds two words of the annotation. -/
theorem line?_of_spaced_arguments : ruleOf spacedType.kind = .typeLike ∧
    spacedType.name? spacedSource = some ['A'] ∧
      (spacedType.namedChildren.filter fun c => modifierKinds.contains c.kind).filterMap
        (·.text? spacedSource) = ["@Table(name = \"t\")\npublic".toList] ∧
      WrittenAs spacedParts "@Table(name = \"t\")\npublic".toList ∧
      spacedType.line? spacedSource true = some "Class: = \"t\") public A".toList ∧
      spacedType.line? spacedSource true ≠ some (labelled (labelOf spacedType.kind)
        ([' '].intercalate (spacedParts.filterMap keyword? ++ [['A']]))) := by
  refine ⟨by decide, by decide +kernel, by decide +kernel, writtenAs_spacedParts, by decide +kernel, ?_⟩
  decide +kernel

end Node

end Outline
