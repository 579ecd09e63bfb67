import Mathlib.Data.List.Basic
import Outline.Stylesheet

/-!
# The blocks of a stylesheet

Laws of the scan `Stylesheet.blocks`.

* `Stylesheet.Stand` — pieces that stand one behind the other in a text, with anything between;
* `Stylesheet.stand_blocks` — the blocks of a text stand in it in this way;
* `Stylesheet.withoutComments_sublist` — taking comments out moves nothing.
-/

namespace Outline.Stylesheet

/-- The blocks stand one behind the other in the text: a run, its brace, what is inside, the
closing brace, and then the next. -/
inductive Stand : List (Text × Text) → Text → Prop
  | nil (t : Text) : Stand [] t
  | cons (gap run inside : Text) {rest : Text} {bs : List (Text × Text)} :
      Stand bs rest → Stand ((run, inside) :: bs) (gap ++ (run ++ '{' :: (inside ++ '}' :: rest)))

theorem Stand.prepend {bs : List (Text × Text)} {t : Text} (h : Stand bs t) (gap : Text) :
    Stand bs (gap ++ t) := by
  cases h with
  | nil => exact Stand.nil _
  | cons gap' run inside h =>
    rw [← List.append_assoc]
    exact Stand.cons (gap ++ gap') run inside h

/-- Some of the blocks stand in the text as all of them do. -/
theorem Stand.sublist {bs cs : List (Text × Text)} {t : Text} (hs : cs.Sublist bs)
    (h : Stand bs t) : Stand cs t := by
  induction h generalizing cs with
  | nil t =>
    cases hs
    exact Stand.nil t
  | @cons gap run inside rest bs _ ih =>
    cases hs with
    | cons _ hs =>
      have hrest := (ih hs).prepend (gap ++ (run ++ '{' :: (inside ++ ['}'])))
      simpa only [List.append_assoc, List.cons_append, List.nil_append] using hrest
    | cons_cons _ hs => exact Stand.cons gap run inside (ih hs)

/-- **The blocks of a text stand in it**, in their order and without a common character. -/
theorem stand_blocks (t : Text) : Stand (blocks t) t := by
  fun_induction blocks t with
  | case1 t h => exact Stand.nil t
  | case2 t inside h rest h' ih =>
    have hcut : t =
        [] ++ (t.takeWhile noBrace ++ '{' :: (inside.takeWhile noBrace ++ '}' :: rest)) := by
      rw [← h', List.takeWhile_append_dropWhile, ← h, List.nil_append,
        List.takeWhile_append_dropWhile]
    have hstand := Stand.cons [] (t.takeWhile noBrace) (inside.takeWhile noBrace) ih
    rwa [← hcut] at hstand
  | case3 t inside h _ ih =>
    have hcut : t = (t.takeWhile noBrace ++ ['{']) ++ inside := by
      rw [List.append_assoc, List.singleton_append, ← h, List.takeWhile_append_dropWhile]
    have hstand := ih.prepend (t.takeWhile noBrace ++ ['{'])
    rwa [← hcut] at hstand
  | case4 t c rest _ h ih =>
    have hcut : t = (t.takeWhile noBrace ++ [c]) ++ rest := by
      rw [List.append_assoc, List.singleton_append, ← h, List.takeWhile_append_dropWhile]
    have hstand := ih.prepend (t.takeWhile noBrace ++ [c])
    rwa [← hcut] at hstand

/-- Taking comments out leaves the other characters in their order. -/
theorem withoutComments_sublist (t : Text) : (withoutComments t).Sublist t := by
  fun_induction withoutComments t with
  | case1 t before after h inner rest h' ih =>
    have hcut : t = before ++ (['/', '*'] ++ inner ++ ['*', '/'] ++ rest) := by
      rw [Text.eq_of_cut?_eq_some h, Text.eq_of_cut?_eq_some h']
      simp only [List.append_assoc]
    have hrest : (withoutComments rest).Sublist (['/', '*'] ++ inner ++ ['*', '/'] ++ rest) :=
      ih.trans (List.sublist_append_right _ rest)
    have hall := hrest.append_left before
    rwa [← hcut] at hall
  | case2 t => exact List.Sublist.refl t
  | case3 t => exact List.Sublist.refl t

end Outline.Stylesheet
