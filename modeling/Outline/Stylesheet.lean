import Outline.Text.Basic

/-!
# Stylesheets

A scan for flat style rules, for the style languages without a grammar.

* `Stylesheet.withoutComments` — the text without its closed comments;
* `Stylesheet.blocks` — each brace-free run before an opening brace that is followed by a
  closing one, with what is between the two;
* `Stylesheet.rules` — the blocks whose run ends in a selector;
* `Stylesheet.lines` — their lines.

Braces are not balanced: of nested blocks only the innermost is a rule, and the part of its run
after the last semicolon is its selector.
-/

namespace Outline

/-- A style rule: its selector and the number of its declarations. -/
structure StyleRule where
  selector : Text
  declarations : Nat
deriving DecidableEq

namespace Stylesheet

/-! ### Comments -/

/-- The text without its comments; from a comment that is not closed on, all stays. -/
def withoutComments (t : Text) : Text :=
  match _h : Text.cut? ['/', '*'] t with
  | some (before, after) =>
    match _h' : Text.cut? ['*', '/'] after with
    | some (_, rest) => before ++ withoutComments rest
    | none => t
  | none => t
termination_by t.length
decreasing_by
  have h1 := congrArg List.length (Text.eq_of_cut?_eq_some _h)
  have h2 := congrArg List.length (Text.eq_of_cut?_eq_some _h')
  simp only [List.length_append, List.length_cons, List.length_nil] at h1 h2
  omega

/-! ### Blocks -/

def noBrace (c : Char) : Bool := c ≠ '{' && c ≠ '}'

/-- What follows the first character that does not satisfy `p` is shorter than the text. -/
theorem length_of_dropWhile_eq {p : Char → Bool} {t rest : Text} {c : Char}
    (h : t.dropWhile p = c :: rest) : rest.length < t.length := by
  have := congrArg List.length h
  have := (List.dropWhile_sublist (l := t) p).length_le
  simp only [List.length_cons] at *
  omega

/-- The innermost blocks of a text: the brace-free run before the opening brace, and the text
between the braces. -/
def blocks (t : Text) : List (Text × Text) :=
  match _h : t.dropWhile noBrace with
  | [] => []
  | '{' :: inside =>
    match _h' : inside.dropWhile noBrace with
    | '}' :: rest => (t.takeWhile noBrace, inside.takeWhile noBrace) :: blocks rest
    | _ => blocks inside
  | _ :: rest => blocks rest
termination_by t.length
decreasing_by
  all_goals
    have := length_of_dropWhile_eq _h
    try have := length_of_dropWhile_eq _h'
    omega

/-! ### Rules -/

/-- The rule that a block is, if its run ends in a selector. -/
def ruleOfBlock? (run body : Text) : Option StyleRule :=
  let selector := (run.afterLast ';').collapse
  if selector = [] then none
  else some ⟨selector, ((body.splitOn ';').filter (·.contains ':')).length⟩

/-- The rules of a stylesheet in order. -/
def rules (t : Text) : List StyleRule :=
  (blocks (withoutComments t)).filterMap fun (run, body) => ruleOfBlock? run body

def ruleLine (r : StyleRule) : Text :=
  "CSS Rule: ".toList ++ r.selector ++ ' ' :: Text.counted r.declarations "declaration"

/-- The lines of the first `limit` rules. -/
def lines (t : Text) (limit : Nat) : List Text := ((rules t).take limit).map ruleLine

theorem length_lines_le (t : Text) (limit : Nat) : (lines t limit).length ≤ limit := by
  rw [lines, List.length_map]
  exact List.length_take_le ..

end Stylesheet

end Outline
