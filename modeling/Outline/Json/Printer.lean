import Outline.Json.Basic

/-!
# Writing JSON

The written form with one member or item a line, two spaces deeper than what holds it.

* `Json.writeString` — a string literal; only quotes, backslashes and control characters are
  escaped;
* `Json.pretty` — the written form of a value; an empty array or object stays on its line.
-/

namespace Outline.Json

def hexByte (n : Nat) : Text := [Nat.digitChar (n / 16), Nat.digitChar (n % 16)]

/-- The written form of a character in a string literal. -/
def escapeChar (c : Char) : Text :=
  if c = '"' then ['\\', '"']
  else if c = '\\' then ['\\', '\\']
  else if c = '\n' then ['\\', 'n']
  else if c = '\r' then ['\\', 'r']
  else if c = '\t' then ['\\', 't']
  else if c = '\x08' then ['\\', 'b']
  else if c = '\x0c' then ['\\', 'f']
  else if c.toNat < 0x20 then ['\\', 'u', '0', '0'] ++ hexByte c.toNat
  else [c]

def writeString (t : Text) : Text := '"' :: t.flatMap escapeChar ++ ['"']

/-- A line break and the blanks of a nesting depth. -/
def newline (depth : Nat) : Text := '\n' :: List.replicate (2 * depth) ' '

mutual

/-- The written form of a value at a nesting depth. -/
def write (depth : Nat) : Json → Text
  | .null => "null".toList
  | .bool b => if b then "true".toList else "false".toList
  | .number literal => literal
  | .string t => writeString t
  | .brokenString => writeString ['\uFFFD']
  | .array [] => ['[', ']']
  | .array (v :: vs) => '[' :: newline (depth + 1) ++ write (depth + 1) v
      ++ writeItems (depth + 1) vs ++ newline depth ++ [']']
  | .object [] => ['{', '}']
  | .object ((k, v) :: ms) => '{' :: newline (depth + 1) ++ writeString k ++ [':', ' ']
      ++ write (depth + 1) v ++ writeMembers (depth + 1) ms ++ newline depth ++ ['}']

/-- The items after the first. -/
def writeItems (depth : Nat) : List Json → Text
  | [] => []
  | v :: vs => ',' :: newline depth ++ write depth v ++ writeItems depth vs

/-- The members after the first. -/
def writeMembers (depth : Nat) : List (Text × Json) → Text
  | [] => []
  | (k, v) :: ms => ',' :: newline depth ++ writeString k ++ [':', ' '] ++ write depth v
      ++ writeMembers depth ms

end

def pretty (v : Json) : Text := write 0 v

end Outline.Json
