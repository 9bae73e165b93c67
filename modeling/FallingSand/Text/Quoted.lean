import FallingSand.Text.Visible

/-!
# Quoted text

A text between double quotes in which every character can be seen: a quote and
a backslash stand after a backslash, the common control characters have letters
of their own, and any other character that does not show is written as its
code point in hexadecimal digits between braces.
-/

namespace FallingSand.Text

/-- The hexadecimal digits of a number, in lower case. -/
def hexDigits (n : Nat) : List Char :=
  Nat.toDigits 16 n

/-- How a character is written between quotes. -/
def escapeChar (c : Char) : List Char :=
  if c = '"' then ['\\', '"']
  else if c = '\\' then ['\\', '\\']
  else if c = '\n' then ['\\', 'n']
  else if c = '\r' then ['\\', 'r']
  else if c = '\t' then ['\\', 't']
  else if c = '\x00' then ['\\', '0']
  else if isVisible c then [c]
  else ['\\', 'u', '\x7b'] ++ hexDigits c.toNat ++ ['\x7d']

/-- A text between quotes. -/
def quoted (text : List Char) : String :=
  String.ofList ('"' :: text.flatMap escapeChar ++ ['"'])

end FallingSand.Text
