import FallingSand.Engine.Action

/-!
# Effects

What the steps of a rule do to the board, and how a cell changes its type. Steps
see what the steps before them did. A step that would write outside the grid, or
whose value reads outside the grid, does nothing.
-/

namespace FallingSand.Engine

open FallingSand.Random (WordSource)

variable {β ρ : Type} [Board β] [WordSource ρ]

/-- Sets a property of the cell at a position to the value of an expression
there. -/
def setInitial (world : World) (p : Vec) (name : String) (e : Expr) : Action β ρ Unit := do
  if let some x ← evaluate world e p Orientation.identity then
    write p ((← read p).set name x.toFloat32)

/-- Makes the cell at a position a new cell of a type. -/
def retype (world : World) (p : Vec) (id : AtomId) : Action β ρ Unit := do
  let atom := world.atom id
  write p atom.newCell
  atom.init.forM fun (name, e) => setInitial world p name e

/-- Changes a property of the cell at a position. The property starts from its
value in the cell, in the type or by default, or else from zero. -/
def change (world : World) (p : Vec) (name : String) (kind : Update) (value : Float32) :
    Action β ρ Unit := do
  if ← inGrid p then
    let cell ← read p
    let current := (world.resolve? cell.properties cell.atom name).getD 0.0
    match kind.next? current value with
    | some next => write p (cell.set name next)
    | none => return

/-- Writes a symbol of an effect pattern to a position. `anchor` is the cell of
the target, and `captured` holds the cells that the rule captured. -/
def place (world : World) (anchor : Cell) (captured : Table Cell) (symbol : EffectSymbol)
    (p : Vec) : Action β ρ Unit :=
  match symbol with
  | .keep => return
  | .anchor => write p anchor
  | .empty => retype world p world.empty
  | .place name =>
    match captured.get? name with
    | some cell => write p cell
    | none =>
      match world.placeable? name with
      | some id => retype world p id
      | none => return

/-- Fills the part of the box that lies in the grid by the effect pattern. -/
def fillBox (world : World) (rule : Rule) (target : Vec) (o : Orientation)
    (captured : Table Cell) : Action β ρ Unit := do
  let anchor ← read target
  (o.box rule target).forM fun (p, column, row) => do
    match rule.effectSymbol? column row with
    | none => return
    | some symbol => if ← inGrid p then place world anchor captured symbol p

/-- Carries out a step; the result is what is captured after it. -/
def runStep (world : World) (rule : Rule) (target : Vec) (o : Orientation)
    (captured : Table Cell) : Step → Action β ρ (Table Cell)
  | .bind symbol source => do
    let p := target + o.apply source
    if ← inGrid p then return captured.insert symbol (← read p)
    else return captured
  | .map => do
    fillBox world rule target o captured
    return captured
  | .update kind name offset value => do
    if let some x ← evaluate world value target o then
      change world (target + o.apply offset) name kind x.toFloat32
    return captured

def runSteps (world : World) (rule : Rule) (target : Vec) (o : Orientation) :
    Action β ρ Unit := do
  let _ ← rule.steps.foldlM (runStep world rule target o) {}

end FallingSand.Engine
