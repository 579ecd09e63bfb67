import Outline.Text.Printable

/-!
# Quoted texts

A text between double quotes, as messages show it: quotes, backslashes and the usual controls
are escaped by a backslash, other characters that would not show by their code point.

* `Text.escape` — the written form of one character;
* `Text.quoted` — the written form of a text.
-/

namespace Outline.Text

/-- A character's code point in braces, as in the escape of U+0301. -/
def escapeCode (c : Char) : Text :=
  ['\\', 'u', '{'] ++ Nat.toDigits 16 c.toNat ++ ['}']

/-- The written form of a character between double quotes. -/
def escape (c : Char) : Text :=
  if c = '\x00' then ['\\', '0']
  else if c = '\t' then ['\\', 't']
  else if c = '\r' then ['\\', 'r']
  else if c = '\n' then ['\\', 'n']
  else if c = '\\' ∨ c = '"' then ['\\', c]
  else if isExtender c || !isPrintable c then escapeCode c
  else [c]

/-- A text between double quotes. -/
def quoted (t : Text) : Text := '"' :: t.flatMap escape ++ ['"']

end Outline.Text
