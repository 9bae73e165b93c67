/-!
# Rounding a quotient to a binary floating-point number

A positive quotient `num / den` of natural numbers is rounded to the nearest
number of a binary format, a tie going to the even significand, by exact
integer arithmetic: the quotient is divided by a power of two that leaves a
significand of the right length, and the remainder decides the last bit. The
result is the bit pattern of the number, whose order is the order of values;
so rounding up past the largest significand carries into the exponent by
itself, and past the largest number it gives the pattern of infinity.
-/

namespace FallingSand.Number

/-- A binary format: the length of the significand and of the exponent field. -/
structure Format where
  precision : Nat
  exponentBits : Nat
  deriving DecidableEq, Repr

namespace Format

/-- The 64-bit format. -/
def double : Format := ⟨53, 11⟩

/-- The 32-bit format. -/
def single : Format := ⟨24, 8⟩

/-- The exponent of the last place of the smallest numbers. -/
def leastExponent (format : Format) : Int :=
  3 - Nat.pow 2 (format.exponentBits - 1) - format.precision

def infinity (format : Format) : Nat :=
  (Nat.pow 2 format.exponentBits - 1) * Nat.pow 2 (format.precision - 1)

/-- The bit pattern of a quiet number that is not a number. -/
def notANumber (format : Format) : Nat :=
  format.infinity + Nat.pow 2 (format.precision - 2)

def signBit (format : Format) : Nat :=
  Nat.pow 2 (format.precision - 1 + format.exponentBits)

end Format

/-- `num / (den · 2 ^ q)` as a numerator and a denominator. -/
def scaled (num den : Nat) (q : Int) : Nat × Nat :=
  if 0 ≤ q then (num, den * Nat.pow 2 q.toNat) else (num * Nat.pow 2 (-q).toNat, den)

/-- `num / den` rounded to an integer, ties to even. -/
def roundQuotient (num den : Nat) : Nat :=
  let low := num / den
  let twice := 2 * (num % den)
  if twice < den then low
  else if den < twice then low + 1
  else low + low % 2

/-- The exponent of the last place in which `num / den` is written: the least
that leaves a significand of at most `precision` bits. -/
def placeExponent (format : Format) (num den : Nat) : Int :=
  let guess : Int := num.log2 - den.log2 - format.precision
  let (n, d) := scaled num den guess
  let exact := if Nat.pow 2 format.precision ≤ n / d then guess + 1 else guess
  max exact format.leastExponent

/-- The bit pattern of the number nearest to `num / den`. -/
def nearestBits (format : Format) (num den : Nat) : Nat :=
  if num = 0 then 0
  else
    let q := placeExponent format num den
    let (n, d) := scaled num den q
    let significand := roundQuotient n d
    let exponentSteps := (q - format.leastExponent).toNat
    min format.infinity (exponentSteps * Nat.pow 2 (format.precision - 1) + significand)

/-- A finite number as `(-1)^negative · significand · 2 ^ exponent`. -/
structure Dyadic where
  negative : Bool
  significand : Nat
  exponent : Int
  deriving DecidableEq, Repr

/-- The number that a 64-bit pattern stands for, if it is finite. -/
def Dyadic.ofFloat? (x : Float) : Option Dyadic :=
  let bits := x.toBits.toNat
  let field : Nat := bits / 0x10000000000000 % 0x800
  let fraction : Nat := bits % 0x10000000000000
  let negative : Bool := 0x8000000000000000 ≤ bits
  if field = 0x7FF then none
  else if field = 0 then some ⟨negative, fraction, -1074⟩
  else some ⟨negative, 0x10000000000000 + fraction, (field : Int) - 1075⟩

/-- The 64-bit number nearest to a dyadic number. -/
def Dyadic.toFloat (x : Dyadic) : Float :=
  let (n, d) := scaled x.significand 1 (-x.exponent)
  let magnitude := nearestBits .double n d
  Float.ofBits (UInt64.ofNat (if x.negative then magnitude + 0x8000000000000000 else magnitude))

end FallingSand.Number
