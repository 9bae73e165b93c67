import FallingSand.Number.Decimal
import FallingSand.Toml.Node

/-!
# Values of configuration files

How strings, numbers, dates, arrays and inline tables are written. Values may
hold other values up to a fixed depth.
-/

namespace FallingSand.Toml

open FallingSand.Text (Scanner)
open FallingSand.Text.Scanner

/-! ## Blanks and line ends -/

/-- Blanks inside a line. -/
def gap : Scanner Unit := do
  let _ ← takeWhile fun c => c == ' ' || c == '\t'

/-- The end of a line. -/
def newline : Scanner Unit := (literal "\n") <|> (literal "\r\n")

/-- Whether a character may stand in a comment: any but control characters. -/
def isPlain (c : Char) : Bool := c == '\t' || (0x20 ≤ c.toNat && c.toNat != 0x7f)

/-- A comment, up to the end of its line. -/
def comment : Scanner Unit := do
  char '#'
  let _ ← takeWhile isPlain

/-- Whether nothing is left. -/
def atEnd : Scanner Unit
  | [] => some ((), [])
  | _ => none

/-- What may follow the content of a line. -/
def lineEnd : Scanner Unit := do
  gap
  let _ ← optional comment
  newline <|> atEnd

/-- Blanks, line ends and comments inside an array. -/
def filler : Scanner Unit := do
  let _ ← many ((do let _ ← takeWhile1 fun c => c == ' ' || c == '\t')
    <|> (do let _ ← optional comment; newline))

/-! ## Strings -/

/-- The number that `n` hexadecimal digits write. -/
def hexNumber : Nat → Scanner Nat
  | 0 => return 0
  | n + 1 => do
    let c ← satisfy fun c => (hexDigit? c).isSome
    let lower ← hexNumber n
    return (hexDigit? c).getD 0 * Nat.pow 16 n + lower

/-- A character by its number in so many hexadecimal digits. -/
def numbered (digits : Nat) : Scanner Char := do
  let n ← hexNumber digits
  if n.isValidChar then return Char.ofNat n else failure

/-- A character that is written with a backslash. -/
def escape : Scanner Char := do
  char '\\'
  match ← satisfy fun _ => true with
  | 'b' => return '\x08'
  | 't' => return '\t'
  | 'n' => return '\n'
  | 'f' => return '\x0c'
  | 'r' => return '\r'
  | '"' => return '"'
  | '\\' => return '\\'
  | 'u' => numbered 4
  | 'U' => numbered 8
  | _ => failure

/-- A character that stands for itself between quotation marks. -/
def unescaped : Scanner Char := satisfy fun c => isPlain c && c != '"' && c != '\\'

/-- A character that stands for itself between apostrophes. -/
def verbatim : Scanner Char := satisfy fun c => isPlain c && c != '\''

/-- A string in quotation marks, in one line. -/
def basicString : Scanner (List Char) := do
  char '"'
  let text ← many (unescaped <|> escape)
  char '"'
  return text

/-- A string in apostrophes, in one line. -/
def literalString : Scanner (List Char) := do
  char '\''
  let text ← many verbatim
  char '\''
  return text

/-- One or two marks inside a string that three of them end. -/
def someMarks (mark : Char) : Scanner (List Char) := do
  let marks ← takeWhile1 (· == mark)
  if marks.length < 3 then return marks else failure

/-- The three marks that end a string, and up to two of the same kind before them
that belong to it. -/
def lastMarks (mark : Char) : Scanner (List Char) := do
  let marks ← takeWhile1 (· == mark)
  if 3 ≤ marks.length && marks.length ≤ 5 then return marks.drop 3 else failure

/-- A backslash at the end of a line, with all blanks and line ends after it. -/
def continuation : Scanner (List Char) := do
  char '\\'; gap; newline
  let _ ← many ((do let _ ← takeWhile1 fun c => c == ' ' || c == '\t') <|> newline)
  return []

/-- A string between marks that are written three times, over several lines. -/
def longString (mark : Char) (piece : Scanner (List Char)) : Scanner (List Char) := do
  literal (String.ofList [mark, mark, mark])
  let _ ← optional newline
  let pieces ← many (piece <|> (do newline; return ['\n']) <|> someMarks mark)
  return pieces.flatten ++ (← lastMarks mark)

/-- A string of any form. -/
def string : Scanner (List Char) :=
  longString '"' ((do return [← unescaped]) <|> (do return [← escape]) <|> continuation)
  <|> longString '\'' (do return [← verbatim])
  <|> basicString <|> literalString

/-! ## Numbers -/

/-- A run of digits that `p` accepts, with single underscores between them. -/
def digitRun (p : Char → Bool) : Scanner (List Char) := do
  let first ← satisfy p
  let more ← many ((satisfy p) <|> (do char '_'; satisfy p))
  return first :: more

/-- The digits of a decimal number without needless zeros. -/
def decimalDigits : Scanner (List Char) := do
  let digits ← (do char '0'; return ['0']) <|> digitRun Char.isDigit
  return digits

/-- The value of digits in some radix. -/
def radixValue (radix : Nat) (digits : List Char) : Nat :=
  digits.foldl (fun n c => radix * n + (hexDigit? c).getD 0) 0

/-- The largest integer that can be written. -/
def largestInteger : Int := 0x7FFFFFFFFFFFFFFF

/-- An integer with a letter for its radix. -/
def radixInteger (mark : String) (radix : Nat) : Scanner Int := do
  literal mark
  let digits ← digitRun fun c => (hexDigit? c).any (· < radix)
  let value : Int := radixValue radix digits
  if value ≤ largestInteger then return value else failure

def decimalInteger : Scanner Int := do
  let negative ← sign
  let size : Int := digitsValue (← decimalDigits)
  let value := if negative then -size else size
  if -largestInteger - 1 ≤ value && value ≤ largestInteger then return value else failure

def integer : Scanner Int :=
  radixInteger "0x" 16 <|> radixInteger "0o" 8 <|> radixInteger "0b" 2 <|> decimalInteger

def exponent : Scanner (List Char) := do
  let _ ← satisfy fun c => c == 'e' || c == 'E'
  let negative ← sign
  let digits ← digitRun Char.isDigit
  return (if negative then ['e', '-'] else ['e']) ++ digits

def fraction : Scanner (List Char) := do
  char '.'
  return '.' :: (← digitRun Char.isDigit)

/-- A number with a fraction or an exponent. One that is too large for 64 bits is
refused. -/
def float : Scanner Unit := do
  let negative ← sign
  let whole ← decimalDigits
  let rest ← exponent <|> (do
    let digits ← fraction
    return digits ++ ((← optional exponent).getD []))
  match Number.readFloat? (whole ++ rest) with
  | some x => if x.isInf && !negative then failure else return
  | none => failure

/-- Infinity, or what is not a number. -/
def specialFloat : Scanner Unit := do
  let _ ← sign
  literal "inf" <|> literal "nan"

/-! ## Dates and times -/

/-- A number of so many decimal digits that lies between two others. -/
def fixed (digits low high : Nat) : Scanner Nat := fun text =>
  let front := text.take digits
  let value := digitsValue front
  if front.length = digits && front.all Char.isDigit && low ≤ value && value ≤ high then
    some (value, text.drop digits)
  else none

/-- The number of days of a month. -/
def daysIn (year month : Nat) : Nat :=
  if month = 2 then
    if year % 4 = 0 && (year % 100 != 0 || year % 400 = 0) then 29 else 28
  else if month = 4 || month = 6 || month = 9 || month = 11 then 30
  else 31

def date : Scanner Unit := do
  let year ← fixed 4 0 9999
  char '-'
  let month ← fixed 2 1 12
  char '-'
  let _ ← fixed 2 1 (daysIn year month)

def time : Scanner Unit := do
  let _ ← fixed 2 0 23
  char ':'
  let _ ← fixed 2 0 59
  char ':'
  let _ ← fixed 2 0 60
  let _ ← optional (do char '.'; takeWhile1 Char.isDigit)

/-- The distance of a time from that of the zero meridian. -/
def zone : Scanner Unit :=
  (do let _ ← satisfy fun c => c == 'Z' || c == 'z')
  <|> (do
    let _ ← satisfy fun c => c == '+' || c == '-'
    let _ ← fixed 2 0 23
    char ':'
    let _ ← fixed 2 0 59)

def moment : Scanner Unit :=
  (do
    date
    let _ ← optional do
      let _ ← satisfy fun c => c == 'T' || c == 't' || c == ' '
      time
      optional zone)
  <|> time

/-! ## Keys, arrays and tables -/

def name : Scanner String := do
  let bare (c : Char) : Bool := c.isAlphanum || c == '_' || c == '-'
  return String.ofList (← basicString <|> literalString <|> takeWhile1 bare)

/-- The largest number of parts of a key, and of arrays and tables inside one
another. -/
def depthLimit : Nat := 79

def key : Scanner Path := do
  gap
  let first ← name
  let more ← many (do gap; char '.'; gap; name)
  gap
  if more.length < depthLimit then return first :: more else failure

/-- A key and its value. -/
def pair (value : Scanner Node) : Scanner (Path × Node) := do
  let path ← key
  char '='; gap
  return (path, ← value)

/-- An array of values. A comma may follow the last value, but not stand alone. -/
def array (value : Scanner Node) : Scanner Node := do
  char '['; filler
  let items ← separated value (do filler; char ','; filler)
  unless items.isEmpty do
    let _ ← optional (do filler; char ',')
  filler; char ']'
  return .array items

/-- A table as a value. -/
def inlineTable (value : Scanner Node) : Scanner Node := do
  char '\x7b'; gap
  let pairs ← separated (pair value) (do gap; char ',')
  gap; char '\x7d'
  match pairs.foldlM (fun entries (path, node) => Entries.insert? path node entries) [] with
  | some entries => return .table .inline entries
  | none => failure

/-- A value that holds no other values. -/
def scalar : Scanner Node :=
  (do return .string (← string))
  <|> (do literal "true"; return .boolean true)
  <|> (do literal "false"; return .boolean false)
  <|> (do moment; return .moment)
  <|> (do float; return .float)
  <|> (do specialFloat; return .float)
  <|> (do return .integer (← integer))

/-- A value that holds values up to some depth. -/
def value : Nat → Scanner Node
  | 0 => scalar
  | depth + 1 => array (value depth) <|> inlineTable (value depth) <|> scalar

end FallingSand.Toml
