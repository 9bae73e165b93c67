import FallingSand.Board.Snapshot
import FallingSand.Engine.Action

/-!
# Colors of cells

What a snapshot looks like. A cell is drawn if the constant `render` of its type
is one. Its color is that of the type, or that of the first color rule of the
type whose condition holds, or else black.
-/

namespace FallingSand.Snapshot

open FallingSand.Engine (look)
open FallingSand.Random (WordSource)

/-- Whether the cell at a position is drawn. -/
def isDrawn (s : Snapshot) (world : World) (p : Vec) : Bool :=
  match s.cell? p with
  | some cell => (world.atom cell.atom).constants.get? "render" == some 1.0
  | none => false

variable {ρ : Type} [WordSource ρ]

/-- The value of an expression at a position; none where it reads outside the
grid. -/
def value (s : Snapshot) (world : World) (p : Vec) (e : Expr) :
    ExceptT Expr.EvalError (StateM ρ) (Option Float) :=
  ExceptT.mk (e.eval (look world s p Orientation.identity))

/-- A channel of a color: an expression that is cut off at both ends of a byte,
and zero where it has no value. -/
def channel (s : Snapshot) (world : World) (p : Vec) (e : Expr) :
    ExceptT Expr.EvalError (StateM ρ) UInt8 := do
  match ← s.value world p e with
  | some x => return x.toUInt8
  | none => return 0

/-- The color that the first of some color rules gives whose condition holds. -/
def dynamicColor (s : Snapshot) (world : World) (p : Vec) :
    List ColorRule → ExceptT Expr.EvalError (StateM ρ) Color
  | [] => return Color.black
  | rule :: rest => do
    if (← s.value world p rule.condition).any Expr.truthy then
      let r ← s.channel world p rule.r
      let g ← s.channel world p rule.g
      let b ← s.channel world p rule.b
      return ⟨r, g, b⟩
    else s.dynamicColor world p rest

/-- The color of the cell at a position, drawn or not; black outside the grid. -/
def color (s : Snapshot) (world : World) (p : Vec) :
    ExceptT Expr.EvalError (StateM ρ) Color := do
  match s.cell? p with
  | none => return Color.black
  | some cell =>
    let atom := world.atom cell.atom
    match atom.color with
    | .fixed color => return color
    | .dynamic => s.dynamicColor world p atom.colorRules

end FallingSand.Snapshot
