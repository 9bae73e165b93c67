import FallingSand.Board.Basic
import FallingSand.Engine.Orientation
import FallingSand.World.Basic

/-!
# Actions

An action changes a board and uses up random words. It may stop with an error;
what it did until then remains. All actions are built from four: looking at the
board, replacing a cell, drawing, and stopping.
-/

namespace FallingSand.Engine

open FallingSand.Random (WordSource)

inductive Error where
  /-- The board does not have a cell of the grid. -/
  | unlocked (position : Vec)
  | eval (error : Expr.EvalError)
  /-- The source of random words never gives a direction to move in, so that the search
  for one does not end. -/
  | noDirection
  deriving DecidableEq, Repr

def Error.message : Error → String
  | .unlocked position => "Cell " ++ position.text ++ " is outside the locked region"
  | .eval error => "Evaluation failed: " ++ error.message
  | .noDirection => "No direction was drawn"

/-- What actions act on: a board, and a source of random words. -/
structure State (β ρ : Type) where
  board : β
  source : ρ

/-- An action with a result. -/
abbrev Action (β ρ α : Type) := ExceptT Error (StateM (State β ρ)) α

variable {β ρ : Type}

def draw {α : Type} (drawing : StateM ρ α) : Action β ρ α :=
  modifyGet fun s =>
    let (x, source) := drawing.run s.source
    (x, { s with source })

variable [Board β]

def inGrid (p : Vec) : Action β ρ Bool := return Board.inGrid (← get).board p

/-- The cell at a position of the grid. -/
def read (p : Vec) : Action β ρ Cell := do
  match Board.cell? (← get).board p with
  | some cell => return cell
  | none => throw (.unlocked p)

def write (p : Vec) (cell : Cell) : Action β ρ Unit := do
  let _ ← read p
  modify fun s => { s with board := Board.write s.board p cell }

/-! ## Expressions -/

/-- What an expression finds at an offset from its anchor. -/
def look (world : World) (board : β) (anchor : Vec) (o : Orientation) (name : String)
    (offset : Vec) : Expr.Lookup :=
  let p := anchor + o.apply offset
  if !Board.inGrid board p then .outOfGrid
  else match Board.cell? board p with
    | none => .inaccessible
    | some cell =>
      match world.resolve? cell.properties cell.atom name with
      | some x => .value x.toFloat
      | none => .missing

variable [WordSource ρ]

/-- The value of an expression at an anchor; none where it reads outside the
grid. -/
def evaluate (world : World) (e : Expr) (anchor : Vec) (o : Orientation) :
    Action β ρ (Option Float) := do
  let board := (← get).board
  match ← draw (e.eval (look world board anchor o)) with
  | .ok x => return x
  | .error error => throw (.eval error)

/-- Whether an expression is true at an anchor; it is not where it reads outside
the grid. -/
def holds (world : World) (e : Expr) (anchor : Vec) (o : Orientation) : Action β ρ Bool := do
  return (← evaluate world e anchor o).any Expr.truthy

end FallingSand.Engine
