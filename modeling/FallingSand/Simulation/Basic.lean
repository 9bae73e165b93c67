import FallingSand.Board.Grid
import FallingSand.Board.Snapshot
import FallingSand.Config.Basic
import FallingSand.Engine.Tick

/-!
# Simulations

A simulation is a world on a grid. Whatever changes the grid locks the tiles
that it needs and is a board action on that region. For a tick these are the
tile of its target and the tiles around it, which is enough because no rule of
the world reaches farther than a tile is wide.
-/

namespace FallingSand

open FallingSand.Engine (Action State)
open FallingSand.Random (WordSource)

/-- A world on a grid. -/
structure Simulation where
  world : World
  config : Config
  grid : Grid

namespace Simulation

inductive Error where
  | config (flaw : Config.Flaw)
  /-- A rule reaches farther than a tile is wide. -/
  | ruleTooLarge (atom : String) (rule : Nat) (reach tileSize : UInt32)
  | action (error : Engine.Error)
  deriving DecidableEq, Repr

def Error.message : Error → String
  | .config flaw => flaw.message
  | .ruleTooLarge atom rule reach tileSize =>
    s!"Rule {rule} of atom " ++ Expr.ticked atom
      ++ s!" reaches {reach} cells but tiles are {tileSize} cells wide"
  | .action error => error.message

def size (sim : Simulation) : Vec := sim.grid.size

def whole (sim : Simulation) : Region := ⟨sim.grid, sim.grid.lockAll⟩

def cell? (sim : Simulation) (p : Vec) : Option Cell :=
  if p.inBounds sim.size then (Region.mk sim.grid (sim.grid.lockRect p p)).cell? p else none

/-- A snapshot of the grid that takes the place of another one. -/
def snapshotInto (sim : Simulation) (s : Snapshot) : Snapshot := s.copyFrom sim.whole

def snapshot (sim : Simulation) : Snapshot := sim.snapshotInto {}

variable {ρ : Type}

/-- Carries out an action on the tiles that a lock says. -/
def locked {α : Type} (lock : Grid → Lock) (action : World → Action Region ρ α) :
    Action Simulation ρ α := fun s =>
  let { world, config, grid } := s.board
  let region : Region := ⟨grid, lock grid⟩
  let (result, after) := (action world).run.run ⟨region, s.source⟩
  (result, ⟨⟨world, config, after.board.grid⟩, after.source⟩)

variable [WordSource ρ]

/-- Lets the cell at a target act. -/
def tick (target : Vec) : Action Simulation ρ Engine.Outcome :=
  locked (·.lockBlock target) fun world => Engine.tick world target

/-- Makes the cells of a list of positions new cells of a type, if they are
chosen, and counts them. -/
def retypeChosen {β : Type} [Board β] (chosen : Cell → Bool) (id : AtomId) (world : World)
    (count : Nat) (p : Vec) : Action β ρ Nat := do
  if chosen (← Engine.read p) then
    Engine.retype world p id
    return count + 1
  else return count

/-- Makes the chosen cells of a rectangle new cells of a type, and counts them.
Both corners belong to the rectangle, which may be partly outside the grid. -/
def retypeRect (low high : Vec) (id : AtomId) (chosen : World → Cell → Bool) :
    Action Simulation ρ Nat := do
  let low := low.max Vec.zero
  let high := high.min ((← get).board.size - Vec.one)
  if high.x < low.x || high.y < low.y then return 0
  locked (·.lockRect low high) fun world =>
    (Vec.rectangle low high).foldlM (retypeChosen (chosen world) id world) 0

/-- Makes every cell a new cell of the empty type. -/
def clear : Action Simulation ρ Unit := do
  let sim := (← get).board
  let _ ← retypeRect Vec.zero (sim.size - Vec.one) sim.world.empty fun _ _ => true

/-- A simulation whose cells have all worked out their properties. -/
def prepare (sim : Simulation) (source : ρ) : Except Error Simulation :=
  if (sim.world.atom sim.world.empty).init.isEmpty then .ok sim
  else match clear.run.run ⟨sim, source⟩ with
    | (.ok (), after) => .ok after.board
    | (.error error, _) => .error (.action error)

/-- The simulation of a world, with all cells empty. The source is used only if the
empty type works out properties. -/
def start (world : World) (config : Config) (source : ρ) : Except Error Simulation := do
  let config ← config.validate.mapError .config
  if let some (atom, rule) := world.farthest? then
    if config.tileSize < rule.reach then
      throw (.ruleTooLarge atom.name rule.id rule.reach config.tileSize)
  let empty := world.atom world.empty
  match Grid.make? config.width config.height config.tileSize empty.newCell with
  | some grid => prepare ⟨world, config, grid⟩ source
  | none => throw (.config .overflow)

end Simulation

end FallingSand
