import FallingSand.Number.Fused

/-!
# The logarithm of one plus a number

`logOnePlus x` is the natural logarithm of `1 + x`, also where `x` is so small
that `1 + x` has lost most of it. The argument is written as
`2 ^ exponent · (1 + fraction)`, where `1 + fraction` lies between the half and
the double of the square root of two; a series in `fraction / (2 + fraction)`
gives the rest. What rounding took from `1 + x` is put back as a correction of
the first order.
-/

namespace FallingSand.Number

/-- The natural logarithm of two up to the last bits, so that its small multiples
are exact. -/
def logTwoHigh : Float := 6.93147180369123816490e-01

/-- What `logTwoHigh` lacks. -/
def logTwoLow : Float := 1.90821492927058770002e-10

/-- `1 + x` as `2 ^ exponent · (1 + fraction)`, up to a factor of `1 + correction`. -/
structure OnePlus where
  exponent : Int
  fraction : Float
  correction : Float
  /-- Whether `fraction` is small enough for two terms of the plain series. -/
  isClose : Bool

namespace OnePlus

/-- A positive number as a power of two and a factor between the half and the
double of the square root of two. -/
def split (u : Float) : Int × Float :=
  let bits := u.toBits
  let exponent : Int := (bits >>> 52).toNat - 1023
  let significand := bits &&& 0xFFFFFFFFFFFFF
  if significand < 0x6A09E00000000 then
    (exponent, .ofBits (0x3FF0000000000000 ||| significand))
  else (exponent + 1, .ofBits (0x3FE0000000000000 ||| significand))

/-- One plus a finite number above `-1`. Close to one the number itself is the
fraction. -/
def ofFloat (x : Float) : OnePlus :=
  if .ofBits 0xBFD2BEC400000000 < x && x < .ofBits 0x3FDA827A00000000 then
    ⟨0, x, 0.0, false⟩
  else
    let u := if x < 9007199254740992.0 then 1.0 + x else x
    let (exponent, factor) := split u
    let lost :=
      if 9007199254740992.0 ≤ x then 0.0
      else if 2.0 ≤ u then 1.0 - (u - x)
      else x - (u - 1.0)
    let fraction := factor - 1.0
    ⟨exponent, fraction, lost / u,
      -1.430511474609375e-6 ≤ fraction && fraction < 9.5367431640625e-7⟩

/-- The series in `z = (fraction / (2 + fraction))²` that the logarithm of
`1 + fraction` has beyond its first terms. -/
def series (z : Float) : Float :=
  let z2 := z * z
  let z4 := z2 * z2
  let z6 := z2 * z4
  let a := multiplyAdd z 2.857142874366239149e-01 3.999999999940941908e-01
  let b := multiplyAdd z 1.818357216161805012e-01 2.222219843214978396e-01
  let c := multiplyAdd z 1.479819860511658591e-01 1.531383769920937332e-01
  let low := multiplyAdd z 6.666666666666735130e-01 (z2 * a)
  multiplyAdd z6 c (multiplyAdd z4 b low)

/-- The logarithm, given what it is less than `fraction` by. -/
def assemble (a : OnePlus) (missing : Float → Float) : Float :=
  if a.exponent = 0 then a.fraction - missing 0.0
  else
    let k := Float.ofInt a.exponent
    let low := multiplyAdd k logTwoLow a.correction
    multiplyAdd k logTwoHigh (a.fraction - missing low)

def log (a : OnePlus) : Float :=
  let f := a.fraction
  let half := 0.5 * f * f
  if a.isClose then
    let rest := half * multiplyAdd (-f) 0.66666666666666666 1.0
    a.assemble fun low => rest - low
  else
    let s := f / (2.0 + f)
    let rest := s * (half + series (s * s))
    a.assemble fun low => half - (low + rest)

end OnePlus

/-- The natural logarithm of `1 + x`. -/
def logOnePlus (x : Float) : Float :=
  if x.isNaN || x < -1.0 then 0.0 / 0.0
  else if x == -1.0 then -1.0 / 0.0
  else if x.isInf then x
  else if x.abs < .ofBits 0x3C90000000000000 then x
  else if x.abs < .ofBits 0x3E20000000000000 then x - x * x * 0.5
  else (OnePlus.ofFloat x).log

end FallingSand.Number
