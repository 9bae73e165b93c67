import FallingSand.Number.Rounding
import FallingSand.Text.Scanner

/-!
# Decimal numerals

How numbers are written: an optional sign, digits with at most one point among
or around them, and an optional decimal exponent; or one of the words for
infinity and for a value that is not a number, in any case of letters. A
numeral denotes a decimal fraction `digits · 10 ^ exponent` exactly, and each
floating-point format rounds that fraction once.
-/

namespace FallingSand.Number

open FallingSand.Text (Scanner)
open FallingSand.Text.Scanner

/-- The unsigned decimal fraction `digits · 10 ^ exponent`. -/
structure Decimal where
  digits : Nat
  exponent : Int
  deriving DecidableEq, Repr

/-- What a numeral writes, before any rounding. -/
inductive Numeral where
  | finite (negative : Bool) (value : Decimal)
  | infinite (negative : Bool)
  | notANumber
  deriving DecidableEq, Repr

namespace Decimal

/-- The exponent part `e`, sign, digits. Where a letter `e` stands, digits have
to follow. -/
def scanExponent : Scanner Int := fun text =>
  match text with
  | 'e' :: left | 'E' :: left =>
    (do let negative ← sign
        let value ← natural
        return if negative then -(value : Int) else value : Scanner Int) left
  | _ => some (0, text)

/-- Digits with an optional point, then an optional exponent. At least one
digit stands before or after the point. -/
def scan : Scanner Decimal := do
  let whole ← takeWhile Char.isDigit
  let fraction ← (do char '.'; takeWhile Char.isDigit) <|> pure []
  if whole.isEmpty && fraction.isEmpty then failure
  let exponent ← scanExponent
  return ⟨digitsValue (whole ++ fraction), exponent - fraction.length⟩

/-- The bit pattern of the number of `format` nearest to a decimal fraction.
Fractions whose exponent alone puts them beyond every format need no powers. -/
def toBits (format : Format) (value : Decimal) : Nat :=
  if value.digits = 0 then 0
  else if 400 < value.exponent then format.infinity
  else if value.exponent < -(400 + value.digits.log2 : Int) then 0
  else if 0 ≤ value.exponent then
    nearestBits format (value.digits * Nat.pow 10 value.exponent.toNat) 1
  else nearestBits format value.digits (Nat.pow 10 (-value.exponent).toNat)

end Decimal

namespace Numeral

/-- One of the words `nan`, `infinity` and `inf`, in any case of letters. -/
def scanWord : Scanner Numeral := fun text =>
  let lower := text.map Char.toLower
  let word (w : String) (value : Numeral) : Option (Numeral × List Char) :=
    (FallingSand.Text.dropLead? w.toList lower).map fun _ => (value, text.drop w.length)
  word "nan" .notANumber <|> word "infinity" (.infinite false) <|> word "inf" (.infinite false)

/-- The numeral with the other sign. -/
def negate : Numeral → Numeral
  | .finite negative value => .finite (!negative) value
  | .infinite negative => .infinite (!negative)
  | .notANumber => .notANumber

/-- A signed decimal fraction, or an unsigned word. -/
def scan : Scanner Numeral :=
  (do let negative ← sign
      let value ← Decimal.scan
      return .finite negative value) <|> scanWord

/-- Reads a whole text as a numeral; a sign may stand before a word too. -/
def read? (text : List Char) : Option Numeral :=
  let scanner : Scanner Numeral := do
    let negative ← sign
    let value ← (do return .finite false (← Decimal.scan)) <|> scanWord
    return if negative then value.negate else value
  match scanner text with
  | some (value, []) => some value
  | _ => none

/-- The bit pattern of the number of `format` nearest to a numeral. -/
def toBits (format : Format) : Numeral → Nat
  | .finite negative value =>
    value.toBits format + if negative then format.signBit else 0
  | .infinite negative => format.infinity + if negative then format.signBit else 0
  | .notANumber => format.notANumber

/-- A numeral rounded to 64 bits. -/
def toFloat (value : Numeral) : Float :=
  Float.ofBits (UInt64.ofNat (value.toBits .double))

/-- A numeral rounded to 32 bits, directly from its decimal value. -/
def toFloat32 (value : Numeral) : Float32 :=
  Float32.ofBits (UInt32.ofNat (value.toBits .single))

end Numeral

/-- A whole text as a 64-bit number. -/
def readFloat? (text : List Char) : Option Float :=
  (Numeral.read? text).map Numeral.toFloat

/-- A whole text as a 32-bit number. -/
def readFloat32? (text : List Char) : Option Float32 :=
  (Numeral.read? text).map Numeral.toFloat32

/-- A whole text as a natural number of at most `limit`. A plus sign may stand
before the digits. -/
def readNatural? (limit : Nat) (text : List Char) : Option Nat :=
  let digits := match text with
    | '+' :: rest => rest
    | _ => text
  match naturalUpTo limit digits with
  | some (value, []) => some value
  | _ => none

/-- A whole text as a 32-bit integer with an optional sign. -/
def readInt32? (text : List Char) : Option Int32 :=
  match int32 text with
  | some (value, []) => some value
  | _ => none

end FallingSand.Number
