import Outline.Proofs.Markers
import Outline.Stylesheet

/-!
# The comments of a stylesheet

What `Stylesheet.withoutComments` leaves of a text, told by the comments that stand in it.

* `Stylesheet.ClosedComment` — a comment with what stands before it, from its opening to the next
  closing;
* `Stylesheet.Uncommented` — a text, and what is left of it when comment after comment is taken out;
* `Stylesheet.uncommented_iff` — `withoutComments` leaves just this;
* `Stylesheet.CommentsClosed` — no comment is open at the end of a text;
* `Stylesheet.withoutComments_comment`, `Stylesheet.withoutComments_plain_append` — the comments ahead
  of a text have no part in what is left of it, nor has a text ahead in which no comment can begin.
-/

namespace Outline.Stylesheet

/-- What a comment begins with. -/
def opening : Text := ['/', '*']

/-- What a comment ends with. -/
def closing : Text := ['*', '/']

/-! ### Texts with comments -/

/-- A comment: the text before it, and the text between its opening and its closing. -/
structure ClosedComment where
  before : Text
  inner : Text

/-- It begins with the first opening and ends with the first closing behind that. -/
structure ClosedComment.First (c : ClosedComment) : Prop where
  opens : ¬ opening <:+: c.before
  closes : ¬ closing <:+: c.inner

/-- Comments one behind the other, and the text behind the last one. -/
def withComments : List ClosedComment → Text → Text
  | [], tail => tail
  | c :: cs, tail => c.before ++ (opening ++ (c.inner ++ (closing ++ withComments cs tail)))

/-- What stands before and between the comments. -/
def outside (cs : List ClosedComment) : Text := cs.flatMap (·.before)

/-- A text with an opening and a closing behind it. -/
def HoldsComment (t : Text) : Prop := ∃ x y z, t = x ++ (opening ++ (y ++ (closing ++ z)))

/-- What is left of a text when its comments are taken out one by one, each from the first opening to
the first closing behind it, until no closing is behind an opening. -/
def Uncommented (t left : Text) : Prop :=
  ∃ cs tail, t = withComments cs tail ∧ (∀ c ∈ cs, c.First) ∧ ¬ HoldsComment tail ∧
    left = outside cs ++ tail

/-- A text in which every opening, read from left to right, has its closing. -/
def CommentsClosed (t : Text) : Prop :=
  ∃ cs tail, t = withComments cs tail ∧ (∀ c ∈ cs, c.First) ∧ ¬ opening <:+: tail

/-! ### What is left of a text -/

theorem HoldsComment.opening_infix {t : Text} (h : HoldsComment t) : opening <:+: t := by
  obtain ⟨x, y, z, rfl⟩ := h
  exact ⟨x, y ++ (closing ++ z), List.append_assoc _ _ _⟩

/-- A closing that is behind some opening is behind the first one. -/
theorem HoldsComment.closing_infix {t before after : Text} (h : HoldsComment t)
    (hcut : Text.cut? opening t = some (before, after)) : closing <:+: after := by
  obtain ⟨x, y, z, rfl⟩ := h
  by_cases hx : opening <:+: x
  · obtain ⟨⟨b, a⟩, hb⟩ :=
      Option.ne_none_iff_exists'.1 (mt (Text.cut?_eq_none_iff opening x).1 (not_not.2 hx))
    have hfirst := Text.cut?_append_of_some hb (opening ++ (y ++ (closing ++ z)))
    obtain ⟨-, rfl⟩ := Prod.mk.inj (Option.some.inj (hcut.symm.trans hfirst))
    exact ⟨a ++ (opening ++ y), z, by simp only [List.append_assoc]⟩
  · have hfirst := Text.cut?_pair (by decide) hx (y ++ (closing ++ z))
    obtain ⟨-, rfl⟩ := Prod.mk.inj (Option.some.inj (hcut.symm.trans hfirst))
    exact ⟨y, z, List.append_assoc _ _ _⟩

theorem withoutComments_of_cut {t before after inner rest : Text}
    (hopen : Text.cut? opening t = some (before, after))
    (hclose : Text.cut? closing after = some (inner, rest)) :
    withoutComments t = before ++ withoutComments rest := by
  rw [withoutComments]
  split
  · rename_i b a h
    obtain ⟨rfl, rfl⟩ := Prod.mk.inj (Option.some.inj (hopen.symm.trans h))
    split
    · rename_i i r h'
      obtain ⟨rfl, rfl⟩ := Prod.mk.inj (Option.some.inj (hclose.symm.trans h'))
      rfl
    · rename_i h'
      rw [show Text.cut? ['*', '/'] after = some (inner, rest) from hclose] at h'
      cases h'
  · rename_i h
    rw [show Text.cut? ['/', '*'] t = some (before, after) from hopen] at h
    cases h

/-- Without an opening, or without a closing behind the first one, all stays. -/
theorem withoutComments_of_not_cut {t : Text}
    (h : ∀ before after, Text.cut? opening t = some (before, after) →
      Text.cut? closing after = none) : withoutComments t = t := by
  rw [withoutComments]
  split
  · rename_i before after hopen
    split
    · rename_i hclose
      have hnone := h before after hopen
      rw [show Text.cut? closing after = some _ from hclose] at hnone
      cases hnone
    · rfl
  · rfl

/-- A text without a comment stays as it is. -/
theorem withoutComments_of_not_holds {t : Text} (h : ¬ HoldsComment t) : withoutComments t = t := by
  apply withoutComments_of_not_cut
  intro before after hopen
  rw [Text.cut?_eq_none_iff]
  rintro ⟨inner, rest, rfl⟩
  apply h
  refine ⟨before, inner, rest, ?_⟩
  rw [Text.eq_of_cut?_eq_some hopen]
  simp only [List.append_assoc]

theorem withoutComments_nil : withoutComments [] = [] :=
  withoutComments_of_not_holds fun h => by simpa [opening] using h.opening_infix

/-- **One comment.**  It is taken out whatever stands behind it. -/
theorem withoutComments_comment {before inner : Text} (hopen : ¬ opening <:+: before)
    (hclose : ¬ closing <:+: inner) (rest : Text) :
    withoutComments (before ++ (opening ++ (inner ++ (closing ++ rest)))) =
      before ++ withoutComments rest :=
  withoutComments_of_cut (Text.cut?_pair (by decide) hopen _) (Text.cut?_pair (by decide) hclose rest)

theorem withoutComments_withComments {cs : List ClosedComment} (h : ∀ c ∈ cs, c.First) (tail : Text) :
    withoutComments (withComments cs tail) = outside cs ++ withoutComments tail := by
  induction cs with
  | nil => rfl
  | cons c cs ih =>
    obtain ⟨hc, hcs⟩ := List.forall_mem_cons.1 h
    show withoutComments (c.before ++ (opening ++ (c.inner ++ (closing ++ withComments cs tail)))) = _
    rw [withoutComments_comment hc.opens hc.closes, ih hcs, outside, outside, List.flatMap_cons,
      List.append_assoc]

/-- Every text is one with comments. -/
theorem exists_withComments (t : Text) :
    ∃ cs tail, t = withComments cs tail ∧ (∀ c ∈ cs, c.First) ∧ ¬ HoldsComment tail := by
  fun_induction withoutComments t with
  | case1 t before after hopen inner rest hclose ih =>
    obtain ⟨cs, tail, rfl, hcs, htail⟩ := ih
    have hfirst : ClosedComment.First ⟨before, inner⟩ :=
      ⟨Text.not_infix_of_cut? (List.cons_ne_nil _ _) hopen,
        Text.not_infix_of_cut? (List.cons_ne_nil _ _) hclose⟩
    refine ⟨⟨before, inner⟩ :: cs, tail, ?_, List.forall_mem_cons.2 ⟨hfirst, hcs⟩, htail⟩
    rw [Text.eq_of_cut?_eq_some hopen, Text.eq_of_cut?_eq_some hclose]
    simp only [withComments, opening, closing, List.append_assoc]
  | case2 t before after hopen hclose =>
    have hnot := (Text.cut?_eq_none_iff _ _).1 hclose
    exact ⟨[], t, rfl, List.forall_mem_nil _, fun h => hnot (h.closing_infix hopen)⟩
  | case3 t hopen =>
    have hnot := (Text.cut?_eq_none_iff _ _).1 hopen
    exact ⟨[], t, rfl, List.forall_mem_nil _, fun h => hnot h.opening_infix⟩

/-- **What the removal of comments leaves**: all that stands outside them. -/
theorem uncommented_iff {t left : Text} : Uncommented t left ↔ left = withoutComments t := by
  constructor
  · rintro ⟨cs, tail, rfl, hcs, htail, rfl⟩
    rw [withoutComments_withComments hcs, withoutComments_of_not_holds htail]
  · rintro rfl
    obtain ⟨cs, tail, rfl, hcs, htail⟩ := exists_withComments t
    refine ⟨cs, tail, rfl, hcs, htail, ?_⟩
    rw [withoutComments_withComments hcs, withoutComments_of_not_holds htail]

/-! ### Texts put together -/

theorem withComments_append (cs : List ClosedComment) (tail rest : Text) :
    withComments cs tail ++ rest = withComments cs (tail ++ rest) := by
  induction cs with
  | nil => rfl
  | cons c cs ih =>
    show c.before ++ (opening ++ (c.inner ++ (closing ++ withComments cs tail))) ++ rest = _
    simp only [List.append_assoc, ih, withComments]

/-- No comment begins in a text without an opening, unless at its end. -/
theorem withoutComments_plain_append {s : Text} (hs : ¬ opening <:+: s) (hend : s.getLast? ≠ some '/')
    (rest : Text) : withoutComments (s ++ rest) = s ++ withoutComments rest := by
  have hcut := Text.cut?_append_pair (r := rest) hs fun h => absurd h hend
  cases hopen : Text.cut? opening rest with
  | none =>
    have hnone : Text.cut? opening (s ++ rest) = none := by
      rw [opening, hcut, show Text.cut? ['/', '*'] rest = none from hopen, Option.map_none]
    have hrest : ¬ HoldsComment rest :=
      fun h => (Text.cut?_eq_none_iff _ _).1 hopen h.opening_infix
    have hall : ¬ HoldsComment (s ++ rest) :=
      fun h => (Text.cut?_eq_none_iff _ _).1 hnone h.opening_infix
    rw [withoutComments_of_not_holds hrest, withoutComments_of_not_holds hall]
  | some p =>
    obtain ⟨before, after⟩ := p
    have hsome : Text.cut? opening (s ++ rest) = some (s ++ before, after) := by
      rw [opening, hcut, show Text.cut? ['/', '*'] rest = some (before, after) from hopen,
        Option.map_some]
    cases hclose : Text.cut? closing after with
    | none =>
      rw [withoutComments_of_not_cut, withoutComments_of_not_cut]
      · intro b a h
        obtain ⟨-, rfl⟩ := Prod.mk.inj (Option.some.inj (hopen.symm.trans h))
        exact hclose
      · intro b a h
        obtain ⟨-, rfl⟩ := Prod.mk.inj (Option.some.inj (hsome.symm.trans h))
        exact hclose
    | some q =>
      rw [withoutComments_of_cut hopen hclose, withoutComments_of_cut hsome hclose,
        List.append_assoc]

/-- Comments end with a slash. -/
theorem eq_slash_of_getLast?_withComments (cs : List ClosedComment) :
    ∀ x ∈ (withComments cs []).getLast?, x = '/' := by
  induction cs with
  | nil => nofun
  | cons c cs ih =>
    have hall : withComments (c :: cs) [] =
        c.before ++ (opening ++ (c.inner ++ ['*'])) ++ '/' :: withComments cs [] := by
      simp only [withComments, closing, List.append_assoc, List.cons_append, List.nil_append]
    rw [hall, List.getLast?_append, List.getLast?_cons]
    intro x hx
    cases hlast : (withComments cs []).getLast? with
    | none =>
      rw [hlast] at hx
      exact (Option.some.inj hx).symm
    | some y =>
      rw [hlast] at hx
      rw [← Option.some.inj hx]
      exact ih y hlast

/-- Where a text does not end with a slash, its end is behind the comments. -/
theorem getLast?_tail {cs : List ClosedComment} {tail : Text} {x : Char} (hx : x ≠ '/')
    (h : (withComments cs tail).getLast? = some x) : tail.getLast? = some x := by
  have hsplit : withComments cs tail = withComments cs [] ++ tail :=
    (withComments_append cs [] tail).symm
  rw [hsplit, List.getLast?_append] at h
  cases htail : tail.getLast? with
  | none =>
    rw [htail] at h
    exact absurd (eq_slash_of_getLast?_withComments cs x h) hx
  | some y =>
    rw [htail] at h
    exact h

/-- **Comments do not lie across a seam** behind a text in which they are closed, unless it ends with a
slash.  Its last character stays the last one. -/
theorem CommentsClosed.withoutComments_append {a : Text} {x : Char} (ha : CommentsClosed a)
    (hx : x ≠ '/') (hend : a = [] ∨ a.getLast? = some x) :
    (withoutComments a = [] ∨ (withoutComments a).getLast? = some x) ∧
      ∀ b, withoutComments (a ++ b) = withoutComments a ++ withoutComments b := by
  rcases hend with rfl | hlast
  · refine ⟨Or.inl withoutComments_nil, fun b => ?_⟩
    rw [withoutComments_nil]
    rfl
  · obtain ⟨cs, tail, rfl, hcs, htail⟩ := ha
    have hlast := getLast?_tail hx hlast
    have hleft : withoutComments (withComments cs tail) = outside cs ++ tail := by
      rw [withoutComments_withComments hcs,
        withoutComments_of_not_holds fun h => htail h.opening_infix]
    refine ⟨Or.inr ?_, fun b => ?_⟩
    · rw [hleft, List.getLast?_append, hlast]
      rfl
    · have hend : tail.getLast? ≠ some '/' := by
        rw [hlast]
        exact fun h => hx (Option.some.inj h)
      rw [withComments_append, withoutComments_withComments hcs,
        withoutComments_plain_append htail hend, hleft, List.append_assoc]

end Outline.Stylesheet
