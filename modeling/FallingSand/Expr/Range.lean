import FallingSand.Random.Draw

/-!
# Ranges of random numbers

The values `min, min + step, min + 2 · step, …` below `max`, each as likely as
the others. How many there are is worked out from a quotient that may come out
too large by rounding, so values that are not below `max` are taken off again.
-/

namespace FallingSand.Expr

open FallingSand.Random

/-- The numbers from `min` in steps of `step`, below `max`. -/
structure RandomRange where
  min : Float
  max : Float
  step : Float

namespace RandomRange

/-- Value number `n` of the range. -/
def value (r : RandomRange) (n : Nat) : Float :=
  r.min + r.step * (UInt64.ofNat n).toFloat

/-- The number of the first `n` values that is left when those at the end that
are not below `max` are taken off. -/
def countUpTo (r : RandomRange) : Nat → Nat
  | 0 => 0
  | n + 1 => if r.value n ≥ r.max then countUpTo r n else n + 1

def count (r : RandomRange) : Nat :=
  r.countUpTo ((r.max - r.min) / r.step).ceil.toUInt64.toNat

/-- A value of the range; the first one when there are none. -/
def sample {ρ : Type} [WordSource ρ] (r : RandomRange) : StateM ρ Float := do
  return r.value (← below64 (Nat.max r.count 1))

end RandomRange

end FallingSand.Expr
