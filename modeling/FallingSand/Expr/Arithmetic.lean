import FallingSand.Number.Logarithm
import FallingSand.Number.Remainder

/-!
# The arithmetic of formulas

The functions and comparisons that formulas are built from, on 64-bit numbers.
Truth is a number: `1` for true and `0` for false, and any number but zero
counts as true. Two numbers count as equal when they differ by no more than a
small tolerance; both `equal` and `unequal` are false where a number is
missing.
-/

namespace FallingSand.Expr

open FallingSand.Number

/-- How far apart two numbers may be and still count as equal. -/
def tolerance : Float := 8.0 * 2.220446049250313e-16

def equal (a b : Float) : Bool := (a - b).abs ≤ tolerance

def unequal (a b : Float) : Bool := (a - b).abs > tolerance

/-- Truth as a number. -/
def ofBool (b : Bool) : Float := if b then 1.0 else 0.0

/-- Whether a number counts as true: it is not zero. -/
def isTrue (x : Float) : Bool := x != 0.0

/-- The inverse of the hyperbolic tangent. It is worked out from one side, so that
rounding need not be the same for a number and its negation. -/
def inverseTanh (x : Float) : Float := 0.5 * logOnePlus ((2.0 * x) / (1.0 - x))

inductive Comparison where
  | less | lessEqual | equal | unequal | greaterEqual | greater
  deriving DecidableEq, Repr

/-- The truth of a comparison as a number. -/
def Comparison.apply (c : Comparison) (a b : Float) : Float :=
  ofBool <| match c with
    | .less => a < b
    | .lessEqual => a ≤ b
    | .equal => Expr.equal a b
    | .unequal => Expr.unequal a b
    | .greaterEqual => a ≥ b
    | .greater => a > b

inductive Function where
  | int | ceil | floor | abs | sign
  | sin | cos | tan | asin | acos | atan
  | sinh | cosh | tanh | asinh | acosh | atanh
  deriving DecidableEq, Repr

namespace Function

def all : List Function :=
  [.int, .ceil, .floor, .abs, .sign, .sin, .cos, .tan, .asin, .acos, .atan,
   .sinh, .cosh, .tanh, .asinh, .acosh, .atanh]

def name : Function → String
  | .int => "int" | .ceil => "ceil" | .floor => "floor" | .abs => "abs" | .sign => "sign"
  | .sin => "sin" | .cos => "cos" | .tan => "tan"
  | .asin => "asin" | .acos => "acos" | .atan => "atan"
  | .sinh => "sinh" | .cosh => "cosh" | .tanh => "tanh"
  | .asinh => "asinh" | .acosh => "acosh" | .atanh => "atanh"

def ofName? (text : String) : Option Function :=
  all.find? (·.name == text)

def apply : Function → Float → Float
  | .int, x => truncate x
  | .ceil, x => x.ceil
  | .floor, x => x.floor
  | .abs, x => x.abs
  | .sign, x => signOf x
  | .sin, x => x.sin
  | .cos, x => x.cos
  | .tan, x => x.tan
  | .asin, x => x.asin
  | .acos, x => x.acos
  | .atan, x => x.atan
  | .sinh, x => x.sinh
  | .cosh, x => x.cosh
  | .tanh, x => x.tanh
  | .asinh, x => x.asinh
  | .acosh, x => x.acosh
  | .atanh, x => inverseTanh x

end Function

/-- The logarithm to a base; bases two and ten have functions of their own. -/
def logarithm (base x : Float) : Float :=
  if equal base 2.0 then x.log2
  else if equal base 10.0 then x.log10
  else x.log / base.log

/-- The multiple of `modulus` nearest to `x`, halves away from zero. -/
def roundTo (modulus x : Float) : Float := (x / modulus).round * modulus

/-- The best of some numbers. Only a better one takes the place of one before it, so
what is not a number stays where it comes first, and counts for nothing later. -/
def bestOf (better : Float → Float → Bool) (first : Float) (rest : List Float) : Float :=
  rest.foldl (fun best x => if better x best then x else best) first

/-- The smaller number, unless either is not a number. -/
def smaller (a b : Float) : Float :=
  if a.isNaN then a else if b.isNaN then b else if a < b then a else b

/-- The larger number, unless either is not a number. -/
def larger (a b : Float) : Float :=
  if a.isNaN then a else if b.isNaN then b else if a > b then a else b

end FallingSand.Expr
