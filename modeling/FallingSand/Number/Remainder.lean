import FallingSand.Number.Rounding

/-!
# Remainder, truncation and sign of 64-bit numbers

The remainder of a division whose quotient is cut off toward zero is exact: both
numbers are whole multiples of the smaller of their two places, so the
remainder of the two multiples is the answer, and it always fits. It has the
sign of the dividend.
-/

namespace FallingSand.Number

/-- `x - y · trunc (x / y)` without rounding. It is not a number when `x` is
infinite or `y` is zero, and `x` itself when `y` is infinite. -/
def remainder (x y : Float) : Float :=
  match Dyadic.ofFloat? x, Dyadic.ofFloat? y with
  | none, _ => 0.0 / 0.0
  | some _, none => if y.isNaN then 0.0 / 0.0 else x
  | some a, some b =>
    if b.significand = 0 then 0.0 / 0.0
    else
      let place := min a.exponent b.exponent
      let dividend := a.significand * Nat.pow 2 (a.exponent - place).toNat
      let divisor := b.significand * Nat.pow 2 (b.exponent - place).toNat
      Dyadic.toFloat ⟨a.negative, dividend % divisor, place⟩

/-- The number without its fraction. -/
def truncate (x : Float) : Float :=
  if x < 0.0 then x.ceil else x.floor

/-- `1` or `-1` by the sign bit, so that zeros count too; what is not a number
stays so. -/
def signOf (x : Float) : Float :=
  if x.isNaN then x
  else if x.toBits.toNat < 0x8000000000000000 then 1.0 else -1.0

end FallingSand.Number
