import Outline.Glob.Basic

/-!
# Reading globs

* `GlobFault` — why a pattern is none, with its wording;
* `Glob.openClass` — a class of characters behind its opening bracket;
* `GlobReader.run` — the tokens of a pattern;
* `Glob.parse` — a pattern for whole paths, in which every fault is refused;
* `Glob.parseLenient` — the same for the lines of ignore files, in which a bracket that is
  never closed stands for itself.

Two stars are special only where they make up a component: at the start or behind a slash, and
at the end or before a slash.  Everywhere else they are two single stars.
-/

namespace Outline

/-- Why a pattern is none. -/
inductive GlobFault where
  | unclosedClass
  | badRange (first last : Char)
  | unopenedChoice
  | unclosedChoice
  | danglingEscape
deriving DecidableEq

def GlobFault.message : GlobFault → Text
  | .unclosedClass => "unclosed character class; missing ']'".toList
  | .badRange a b => "invalid range; '".toList ++ a :: "' > '".toList ++ [b, '\'']
  | .unopenedChoice =>
    "unopened alternate group; missing '\x7b' (maybe escape '\x7d' with '[\x7d]'?)".toList
  | .unclosedChoice =>
    "unclosed alternate group; missing '\x7d' (maybe escape '\x7b' with '[\x7b]'?)".toList
  | .danglingEscape => "dangling '\\'".toList

/-! ### Classes -/

/-- What a bracket opens. -/
inductive ClassReading where
  | closed (ranges : List (Char × Char)) (rest : Text)
  | unclosed
  | badRange (first last : Char)

/-- Reads a class behind its bracket and its negation.  `first` holds before the first
character, `inRange` after a hyphen that may lead to the end of a range; the ranges read so far
are in reverse. -/
def Glob.readClass (first inRange : Bool) (ranges : List (Char × Char)) : Text → ClassReading
  | [] => .unclosed
  | c :: r =>
    if c = ']' ∧ first = false then
      .closed (if inRange then ('-', '-') :: ranges else ranges).reverse r
    else if inRange then
      match ranges with
      | (a, _) :: ranges =>
        if c < a then .badRange a c else readClass false false ((a, c) :: ranges) r
      | [] => readClass false false [(c, c)] r
    else if c = '-' ∧ first = false then readClass false true ranges r
    else readClass false false ((c, c) :: ranges) r

theorem Glob.length_lt_of_readClass {t rest : Text} {first inRange : Bool}
    {ranges found : List (Char × Char)}
    (h : Glob.readClass first inRange ranges t = .closed found rest) :
    rest.length < t.length := by
  induction t generalizing first inRange ranges with
  | nil => simp [Glob.readClass] at h
  | cons c r ih =>
    simp only [Glob.readClass] at h
    split at h
    · cases h; simp
    · split at h
      · split at h
        · split at h
          · cases h
          · have := ih h; simp only [List.length_cons]; omega
        · have := ih h; simp only [List.length_cons]; omega
      · split at h
        · have := ih h; simp only [List.length_cons]; omega
        · have := ih h; simp only [List.length_cons]; omega

/-- Reads a class behind its bracket: whether it is negated, and the class. -/
def Glob.openClass : Text → Bool × ClassReading
  | '!' :: r => (true, Glob.readClass true false [] r)
  | '^' :: r => (true, Glob.readClass true false [] r)
  | r => (false, Glob.readClass true false [] r)

theorem Glob.length_lt_of_openClass {t rest : Text} {negated : Bool}
    {found : List (Char × Char)} (h : Glob.openClass t = (negated, .closed found rest)) :
    rest.length < t.length := by
  unfold Glob.openClass at h
  split at h
  · have := Glob.length_lt_of_readClass (congrArg Prod.snd h)
    simp only [List.length_cons]
    omega
  · have := Glob.length_lt_of_readClass (congrArg Prod.snd h)
    simp only [List.length_cons]
    omega
  · exact Glob.length_lt_of_readClass (congrArg Prod.snd h)

/-! ### Tokens -/

/-- A group of alternatives that is still open: its finished branches and the tokens before
it, both in reverse. -/
structure OpenGroup where
  branches : List (List GlobToken)
  before : List GlobToken

/-- What has been read of a pattern: the character before, the tokens of the branch in reverse,
the groups around it, and whether brackets still open classes. -/
structure GlobReader where
  previous : Option Char
  tokens : List GlobToken
  groups : List OpenGroup
  classes : Bool

namespace GlobReader

/-- Adds a token read up to `c`. -/
def push (g : GlobReader) (t : GlobToken) (c : Char) : GlobReader :=
  { g with tokens := t :: g.tokens, previous := some c }

/-- Whether a branch matches only the empty text, being made of empty groups. -/
def isVoid (branch : List GlobToken) : Bool :=
  branch.all fun | .choice [] => true | _ => false

/-- The token of a group; branches that match only the empty text are left out. -/
def groupToken (branches : List (List GlobToken)) : GlobToken :=
  .choice (branches.filter fun b => !isVoid b)

/-- Whether two stars may be a component, by the character before them. -/
def mayBeComponent (g : GlobReader) : Bool :=
  g.previous == some '/'
    || (!g.groups.isEmpty && (g.previous == some ',' || g.previous == some '{'))

/-- What two stars make of the tokens before them: a slash becomes part of the wildcard, and a
wildcard for components stays as it is. -/
def absorb (atEnd : Bool) : List GlobToken → List GlobToken
  | [] => [.anyDepth]
  | .anyDepth :: ts => .anyDepth :: ts
  | .inside :: ts => .inside :: ts
  | _ :: ts => (if atEnd then .inside else .between) :: ts

/-- The reader behind two stars and the slash that may follow them, and the rest. -/
def twoStars (g : GlobReader) (t : Text) : GlobReader × Text :=
  let plain := { g with tokens := .star :: .star :: g.tokens, previous := some '*' }
  if g.tokens.isEmpty || g.mayBeComponent then
    match t with
    | [] => ({ g with tokens := absorb true g.tokens, previous := some '*' }, [])
    | '/' :: r => ({ g with tokens := absorb false g.tokens, previous := some '/' }, r)
    | c :: r =>
      if !g.tokens.isEmpty && !g.groups.isEmpty && (c == ',' || c == '}') then
        ({ g with tokens := absorb true g.tokens, previous := some '*' }, c :: r)
      else (plain, c :: r)
  else (plain, t)

theorem length_twoStars_le (g : GlobReader) (t : Text) :
    (g.twoStars t).2.length ≤ t.length := by
  simp only [twoStars]
  split
  · split
    · simp
    · simp
    · split <;> simp
  · simp

/-- The tokens of a pattern.  A lenient reader takes a bracket that is never closed, and every
bracket after it, for itself. -/
def run (lenient : Bool) (g : GlobReader) : Text → Except GlobFault (List GlobToken)
  | [] => if g.groups.isEmpty then .ok g.tokens.reverse else .error .unclosedChoice
  | '?' :: r => run lenient (g.push .any '?') r
  | '*' :: '*' :: r => run lenient (g.twoStars r).1 (g.twoStars r).2
  | '*' :: r => run lenient (g.push .star '*') r
  | '{' :: r =>
    run lenient ⟨some '{', [], ⟨[], g.tokens⟩ :: g.groups, g.classes⟩ r
  | '}' :: r =>
    match g.groups with
    | [] => .error .unopenedChoice
    | group :: groups =>
      let token := groupToken (g.tokens.reverse :: group.branches).reverse
      run lenient ⟨some '}', token :: group.before, groups, g.classes⟩ r
  | ',' :: r =>
    match g.groups with
    | [] => run lenient (g.push (.literal ',') ',') r
    | group :: groups =>
      run lenient ⟨some ',', [], ⟨g.tokens.reverse :: group.branches, group.before⟩ :: groups,
        g.classes⟩ r
  | '\\' :: [] => .error .danglingEscape
  | '\\' :: c :: r => run lenient (g.push (.literal c) c) r
  | '[' :: r =>
    if g.classes then
      match _h : Glob.openClass r with
      | (negated, .closed ranges rest) => run lenient (g.push (.byteClass negated ranges) ']') rest
      | (_, .badRange a b) => .error (.badRange a b)
      | (_, .unclosed) =>
        if lenient then run lenient { g.push (.literal '[') '[' with classes := false } r
        else .error .unclosedClass
    else run lenient (g.push (.literal '[') '[') r
  | c :: r => run lenient (g.push (.literal c) c) r
termination_by t => t.length
decreasing_by
  all_goals simp only [List.length_cons]
  any_goals omega
  · exact Nat.lt_succ_of_le (Nat.le_succ_of_le (length_twoStars_le g r))
  · exact Nat.lt_succ_of_lt (Glob.length_lt_of_openClass _h)

def start : GlobReader := ⟨none, [], [], true⟩

end GlobReader

namespace Glob

/-- The pattern of a text, for whole paths. -/
def parse (t : Text) : Except GlobFault Glob :=
  (GlobReader.run false GlobReader.start t).map fun tokens => ⟨tokens, false⟩

/-- The pattern of a text, as ignore files write it. -/
def parseLenient (t : Text) : Except GlobFault Glob :=
  (GlobReader.run true GlobReader.start t).map fun tokens => ⟨tokens, true⟩

end Glob

end Outline
