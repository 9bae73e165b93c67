import FallingSand.Number.Rounding

/-!
# The shortest decimal text of a number

A finite 64-bit number is written with the fewest significant digits that read
back as the same number, and of several such decimals with the nearest one.
The reals that round to `m · 2 ^ q` form an interval that reaches half a place
to either side, or a quarter of a place downwards where `m` is the least
significand of its length; its ends belong to it exactly when `m` is even. On
each decimal grid, coarse to fine, only the two neighbours of the number need
to be tried.

The text is positional whatever the size: there is never an exponent.
-/

namespace FallingSand.Number

/-- A decimal `digits · 10 ^ exponent`, and how far it is from the number that
it is to stand for. -/
structure Approximation where
  digits : Nat
  exponent : Int
  deriving DecidableEq, Repr

/-- The interval of reals that round to a positive number, over the common
denominator `den`; its ends belong to it when `closed`. -/
structure RoundingInterval where
  low : Nat
  value : Nat
  high : Nat
  den : Nat
  closed : Bool

/-- The rounding interval of `significand · 2 ^ exponent` among 64-bit numbers. -/
def RoundingInterval.of (x : Dyadic) : RoundingInterval :=
  let quarters := 4 * x.significand
  let below := if x.significand = 0x10000000000000 && -1074 < x.exponent then 1 else 2
  let (scale, den) := scaled 1 4 (-x.exponent)
  { low := (quarters - below) * scale
    value := quarters * scale
    high := (quarters + 2) * scale
    den := den
    closed := x.significand % 2 = 0 }

/-- Whether `num / den'` lies in the interval. -/
def RoundingInterval.contains (i : RoundingInterval) (num den' : Nat) : Bool :=
  let low := i.low * den'
  let high := i.high * den'
  let point := num * i.den
  if i.closed then low ≤ point && point ≤ high else low < point && point < high

/-- The neighbours of the number on the grid of multiples of `10 ^ exponent`
that lie in its interval, the nearer one if there are two. -/
def RoundingInterval.onGrid? (i : RoundingInterval) (exponent : Int) :
    Option Approximation :=
  let power := Nat.pow 10 exponent.natAbs
  let (unitNum, unitDen) := if 0 ≤ exponent then (power, 1) else (1, power)
  let floor := i.value * unitDen / (i.den * unitNum)
  let fits (n : Nat) : Bool := i.contains (n * unitNum) unitDen
  let twiceAbove := 2 * (i.value * unitDen - floor * (i.den * unitNum))
  let nearer := if twiceAbove ≤ i.den * unitNum then floor else floor + 1
  if fits nearer then some ⟨nearer, exponent⟩
  else if fits floor then some ⟨floor, exponent⟩
  else if fits (floor + 1) then some ⟨floor + 1, exponent⟩
  else none

def digitCount (n : Nat) : Nat :=
  (Nat.toDigits 10 n).length

/-- The least `k` with `num / den < 10 ^ k`, for a positive quotient. -/
def decimalMagnitude (num den : Nat) : Int :=
  let guess : Int := digitCount num - digitCount den
  let power := Nat.pow 10 guess.natAbs
  let below := if 0 ≤ guess then num < den * power else num * power < den
  if below then guess else guess + 1

/-- The shortest decimal that rounds to a positive number. Seventeen digits
always suffice. -/
def shortest (x : Dyadic) : Approximation :=
  let interval := RoundingInterval.of x
  let magnitude := decimalMagnitude interval.value interval.den
  let grids := (List.range 17).map fun (n : Nat) => magnitude - 1 - n
  (grids.findSome? interval.onGrid?).getD ⟨0, 0⟩

/-- The positional text of a decimal, without zeros that say nothing. -/
def Approximation.text (a : Approximation) : String :=
  let digits := Nat.toDigits 10 a.digits
  if 0 ≤ a.exponent then
    String.ofList (digits ++ List.replicate a.exponent.toNat '0')
  else
    let places := (-a.exponent).toNat
    let padded := List.replicate (places + 1 - digits.length) '0' ++ digits
    let whole := padded.take (padded.length - places)
    let fraction := padded.drop (padded.length - places)
    let fraction := (fraction.reverse.dropWhile (· == '0')).reverse
    if fraction.isEmpty then String.ofList whole
    else String.ofList (whole ++ '.' :: fraction)

def floatText (x : Float) : String :=
  match Dyadic.ofFloat? x with
  | none =>
    if x.isNaN then "NaN" else if x < 0.0 then "-inf" else "inf"
  | some d =>
    let magnitude := if d.significand = 0 then "0" else (shortest d).text
    if d.negative then "-" ++ magnitude else magnitude

end FallingSand.Number
