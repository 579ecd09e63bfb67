import Outline.Path

/-!
# Globs

Patterns for paths, as sequences of tokens, and what they match.

* `GlobToken` — a part of a pattern; `**` is special only as a whole component;
* `GlobToken.rests` — the texts that can be left when a token has matched at the start;
* `Glob`, `Glob.isMatch` — a pattern, and whether it matches a whole path.

A pattern matches bytes.  In a glob whose stars are bounded, one star or question mark does not
reach over a slash.
-/

namespace Outline

/-- A part of a pattern. -/
inductive GlobToken where
  | literal (c : Char)
  /-- A question mark: one byte. -/
  | any
  /-- A star: any bytes. -/
  | star
  /-- `**/` at the start: nothing, or everything up to a slash. -/
  | anyDepth
  /-- `/**` at the end: a slash and anything. -/
  | inside
  /-- `/**/`: a slash, or everything between two. -/
  | between
  /-- One byte of the ranges, or one outside them. -/
  | byteClass (negated : Bool) (ranges : List (Char × Char))
  /-- One of several patterns. -/
  | choice (branches : List (List GlobToken))

namespace GlobToken

/-- The bounds of the bytes that a range of characters stands for.  Between the two characters,
the last byte of the first and the first byte of the second bound a range; all other bytes
stand for themselves. -/
def byteBounds (r : Char × Char) : List (UInt8 × UInt8) :=
  let first := String.utf8EncodeChar r.1
  let last := String.utf8EncodeChar r.2
  if r.1 = r.2 then first.map fun b => (b, b)
  else
    (first.dropLast.map fun b => (b, b))
      ++ [(first.getLast?.getD 0, last.head?.getD 0)]
      ++ (last.tail.map fun b => (b, b))

def inRanges (ranges : List (Char × Char)) (b : UInt8) : Bool :=
  (ranges.flatMap byteBounds).any fun r => r.1 ≤ b && b ≤ r.2

/-- What can be left behind a star: every end of a text that is reached over bytes which the
star may stand for. -/
def starRests (bounded : Bool) : Bytes → List Bytes
  | [] => [[]]
  | b :: s => (b :: s) :: if bounded && b == Path.slash then [] else starRests bounded s

/-- What can be left behind a slash anywhere. -/
def slashRests : Bytes → List Bytes
  | [] => []
  | b :: s => if b = Path.slash then s :: slashRests s else slashRests s

/-- What can be left behind one byte that satisfies `p`. -/
def byteRests (p : UInt8 → Bool) : Bytes → List Bytes
  | [] => []
  | b :: s => if p b then [s] else []

/-- What is left behind the bytes `l`. -/
def literalRests : (l : Bytes) → Bytes → List Bytes
  | [], s => [s]
  | _ :: _, [] => []
  | a :: l, b :: s => if a = b then literalRests l s else []

/-- What can be left behind `/**` at the end. -/
def insideRests : Bytes → List Bytes
  | [] => []
  | b :: s => if b = Path.slash then starRests false s else []

/-- What can be left behind `/**/`. -/
def betweenRests : Bytes → List Bytes
  | [] => []
  | b :: s => if b = Path.slash then s :: slashRests s else []

mutual

/-- What can be left of a text when the token has matched at its start.  A choice without
branches matches the empty text. -/
def rests (bounded : Bool) : GlobToken → Bytes → List Bytes
  | .literal c, s => literalRests (String.utf8EncodeChar c) s
  | .any, s => byteRests (fun b => !(bounded && b == Path.slash)) s
  | .star, s => starRests bounded s
  | .anyDepth, s => s :: slashRests s
  | .inside, s => insideRests s
  | .between, s => betweenRests s
  | .byteClass negated ranges, s => byteRests (fun b => inRanges ranges b != negated) s
  | .choice [], s => [s]
  | .choice (branch :: branches), s =>
    restsAll bounded branch [s] ++ restsChoice bounded branches s

/-- What can be left when one of several patterns has matched. -/
def restsChoice (bounded : Bool) : List (List GlobToken) → Bytes → List Bytes
  | [], _ => []
  | branch :: branches, s => restsAll bounded branch [s] ++ restsChoice bounded branches s

/-- What can be left when all tokens have matched one after the other at the start of one of
the texts. -/
def restsAll (bounded : Bool) : List GlobToken → List Bytes → List Bytes
  | [], ss => ss
  | t :: ts, ss => restsAll bounded ts (ss.flatMap fun s => rests bounded t s).eraseDups

end

end GlobToken

/-- A pattern.  If it is `bounded`, stars and question marks do not match slashes. -/
structure Glob where
  tokens : List GlobToken
  bounded : Bool

namespace Glob

/-- Whether a pattern matches a whole path.  The pattern `**` alone matches everything. -/
def isMatch (g : Glob) (s : Bytes) : Bool :=
  match g.tokens with
  | [.anyDepth] => true
  | tokens => (GlobToken.restsAll g.bounded tokens [s]).contains []

end Glob

end Outline
