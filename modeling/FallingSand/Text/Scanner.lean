import FallingSand.Text.Blank
import FallingSand.Text.Split

/-!
# Scanners: reading a text from the front

A scanner takes a text and either fails or returns a value with the text that
is left. Scanners compose as the monad `StateT (List Char) Option`: `>>=` is
"and then", and `<|>` tries its right side on the same text when its left side
fails. Nothing is ever consumed by a scanner that fails, so `optional` gives
`none` and leaves the text as it is.

The *layout* characters that separate the parts of a statement are the space,
the tab, carriage return and line feed; they are fewer than the blanks of
`FallingSand.Text.isBlank`.
-/

namespace FallingSand.Text

/-- A reader of some front part of a text. -/
abbrev Scanner (α : Type) := StateT (List Char) Option α

namespace Scanner

/-- Reads the longest front part whose characters satisfy `p`, maybe none. -/
def takeWhile (p : Char → Bool) : Scanner (List Char) := fun text =>
  some (text.takeWhile p, text.dropWhile p)

/-- Reads the longest front part whose characters satisfy `p`, at least one. -/
def takeWhile1 (p : Char → Bool) : Scanner (List Char) := fun text =>
  if (text.takeWhile p).isEmpty then none
  else some (text.takeWhile p, text.dropWhile p)

def char (c : Char) : Scanner Unit
  | [] => none
  | d :: rest => if d = c then some ((), rest) else none

def satisfy (p : Char → Bool) : Scanner Char
  | [] => none
  | c :: rest => if p c then some (c, rest) else none

def literal (text : String) : Scanner Unit := fun input =>
  (dropLead? text.toList input).map fun rest => ((), rest)

def rest : Scanner (List Char) := fun text => some (text, [])

/-- Whether a character separates the parts of a statement. -/
def isLayout (c : Char) : Bool :=
  c == ' ' || c == '\t' || c == '\r' || c == '\n'

/-- Any amount of layout. -/
def layout : Scanner Unit := do
  let _ ← takeWhile isLayout

/-- At least one layout character. -/
def layout1 : Scanner Unit := do
  let _ ← takeWhile1 isLayout

/-- Whether a character may stand in a name: an ASCII letter or digit, or `_`. -/
def isNameChar (c : Char) : Bool :=
  c.isAlphanum || c == '_'

/-- A nonempty run of name characters. -/
def identifier : Scanner String := do
  return String.ofList (← takeWhile1 isNameChar)

/-- The mark `c` with any layout around it. -/
def mark (c : Char) : Scanner Unit := do
  layout; char c; layout

/-- `item`s one after another until one fails; `fuel` bounds their number. -/
def manyUpTo {α : Type} (item : Scanner α) : Nat → Scanner (List α)
  | 0 => pure []
  | fuel + 1 => fun text =>
    match item text with
    | none => some ([], text)
    | some (a, left) =>
      (manyUpTo item fuel left).map fun (more, left) => (a :: more, left)

/-- As many `item`s as there are. Each is taken to read at least a character. -/
def many {α : Type} (item : Scanner α) : Scanner (List α) := fun text =>
  manyUpTo item text.length text

/-- `item`s separated by `separator`, maybe none. A separator that no item
follows is left unread. -/
def separated {α : Type} (item : Scanner α) (separator : Scanner Unit) :
    Scanner (List α) := do
  match ← optional item with
  | none => return []
  | some first => return first :: (← many (do separator; item))

def digit? (c : Char) : Option Nat :=
  if c.isDigit then some (c.toNat - '0'.toNat) else none

def hexDigit? (c : Char) : Option Nat :=
  if '0' ≤ c && c ≤ '9' then some (c.toNat - '0'.toNat)
  else if 'a' ≤ c && c ≤ 'f' then some (c.toNat - 'a'.toNat + 10)
  else if 'A' ≤ c && c ≤ 'F' then some (c.toNat - 'A'.toNat + 10)
  else none

/-- The number that a list of decimal digits writes. -/
def digitsValue (digits : List Char) : Nat :=
  digits.foldl (fun value c => 10 * value + (digit? c).getD 0) 0

/-- A nonempty run of decimal digits and the number it writes. -/
def natural : Scanner Nat := do
  return digitsValue (← takeWhile1 Char.isDigit)

/-- A natural number of at most `limit`; a larger numeral is refused whole. -/
def naturalUpTo (limit : Nat) : Scanner Nat := do
  let value ← natural
  if value ≤ limit then return value else failure

/-- A sign, if there is one: whether it is a minus. -/
def sign : Scanner Bool := fun text =>
  match text with
  | '-' :: left => some (true, left)
  | '+' :: left => some (false, left)
  | _ => some (false, text)

/-- An integer that fits 32 bits in two's complement, with an optional sign. -/
def int32 : Scanner Int32 := do
  let negative ← sign
  let value ← naturalUpTo (if negative then 0x80000000 else 0x7FFFFFFF)
  return if negative then Int32.ofInt (-value) else Int32.ofInt value

end Scanner

end FallingSand.Text
