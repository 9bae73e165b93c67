import FallingSand.Number.Rounding

/-!
# Products and sums that are rounded once

`multiplyAdd x y z` is the 64-bit number nearest to `x · y + z`. The product of two
numbers and the sum of two products are whole multiples of the smaller of their
places, so both are worked out exactly before the only rounding.
-/

namespace FallingSand.Number

namespace Dyadic

/-- The number as a multiple of `2 ^ place`, which is no larger than its own place. -/
def multipleOf (x : Dyadic) (place : Int) : Int :=
  let multiple : Int := x.significand * Nat.pow 2 (x.exponent - place).toNat
  if x.negative then -multiple else multiple

def mul (x y : Dyadic) : Dyadic :=
  ⟨x.negative != y.negative, x.significand * y.significand, x.exponent + y.exponent⟩

/-- The sum. A sum of zero is negative only if both numbers are. -/
def add (x y : Dyadic) : Dyadic :=
  let place := min x.exponent y.exponent
  let total := x.multipleOf place + y.multipleOf place
  ⟨total < 0 || (total = 0 && x.negative && y.negative), total.natAbs, place⟩

end Dyadic

/-- `x · y + z` with a single rounding. -/
def multiplyAdd (x y z : Float) : Float :=
  match Dyadic.ofFloat? x, Dyadic.ofFloat? y, Dyadic.ofFloat? z with
  | some a, some b, some c => ((a.mul b).add c).toFloat
  | some _, some _, none => z
  | _, _, _ => x * y + z

end FallingSand.Number
