import FallingSand.Expr.Range
import FallingSand.Geometry.Vec
import FallingSand.Number.Decimal

/-!
# Bracket tokens

What may stand between brackets: a property, `[name]` or `[name - x, y]`, or a
range of random numbers, `[$name'min'max'step]`. The name of a range has no
meaning of its own. Where a property is written or read, in an expression or as
the target of a statement, it is read by the same scanner.
-/

namespace FallingSand.Expr

open FallingSand.Text (Scanner trim trimStart)
open FallingSand.Text.Scanner
open FallingSand.Number (Numeral)

/-- A property of a cell, and the box coordinate of the cell if it is given. -/
structure PropertyRef where
  name : String
  coordinate : Option (UInt32 × UInt32)
  deriving DecidableEq, Repr

/-- A coordinate of a box in a bracket. -/
def scanCoordinate : Scanner UInt32 := do
  return UInt32.ofNat (← naturalUpTo (UInt32.size - 1))

def PropertyRef.scan : Scanner PropertyRef := do
  layout
  let name ← identifier
  layout
  let coordinate ← optional do
    char '-'; layout
    let x ← scanCoordinate
    mark ','
    let y ← scanCoordinate
    return (x, y)
  return ⟨name, coordinate⟩

/-- The inside of a bracket with a range of random numbers. -/
def RandomRange.scan : Scanner RandomRange := do
  layout; char '$'
  let _ ← identifier
  char '\''
  let min ← Numeral.scan
  char '\''
  let max ← Numeral.scan
  char '\''
  let step ← Numeral.scan
  return ⟨min.toFloat, max.toFloat, step.toFloat⟩

/-- What is wrong with a range of random numbers. -/
inductive RangeFlaw where
  | step | order
  deriving DecidableEq, Repr

def RangeFlaw.message : RangeFlaw → String
  | .step => "step must be positive"
  | .order => "max must be greater than min"

def RandomRange.flaw? (r : RandomRange) : Option RangeFlaw :=
  if !(r.step > 0.0) then some .step
  else if !(r.max > r.min) then some .order
  else none

/-- What a bracket stands for. -/
inductive Token where
  | property (ref : PropertyRef)
  | random (range : RandomRange)

/-- Why the inside of a bracket is no token. -/
inductive TokenFault where
  | malformed
  | range (flaw : RangeFlaw)
  deriving DecidableEq, Repr

/-- Runs a scanner on a whole text, with blanks allowed after what it reads. -/
def scanWhole? {α : Type} (scanner : Scanner α) (text : List Char) : Option α :=
  match scanner text with
  | some (value, rest) => if (trim rest).isEmpty then some value else none
  | none => none

/-- The token that the inside of a bracket writes. -/
def Token.read (inner : List Char) : Except TokenFault Token :=
  if (trimStart inner).head? = some '$' then
    match scanWhole? RandomRange.scan inner with
    | none => .error .malformed
    | some range =>
      match range.flaw? with
      | some flaw => .error (.range flaw)
      | none => .ok (.random range)
  else
    match scanWhole? PropertyRef.scan inner with
    | none => .error .malformed
    | some ref => .ok (.property ref)

end FallingSand.Expr
