import FallingSand.Simulation.Basic

/-!
# Workers

A worker makes one tick after the other. It goes where its last tick told it to
go, or else to a random position. Workers take turns on one simulation, and the
first error stops them all.
-/

namespace FallingSand

open FallingSand.Random (WordSource between)

structure Worker (ρ : Type) where
  number : Nat
  source : ρ
  /-- Where to go next, if the last tick said so. -/
  follow : Option Vec := none

/-- The error that stopped a worker, and where it happened. -/
structure Failure where
  worker : Nat
  target : Vec
  error : Engine.Error
  deriving DecidableEq, Repr

def Failure.message (failure : Failure) : String :=
  s!"Worker {failure.worker} stopped at " ++ failure.target.text ++ ": "
    ++ failure.error.message

/-- How much was done. -/
structure Stats where
  ticks : UInt64 := 0
  applied : UInt64 := 0
  deriving DecidableEq, Repr, Inhabited

/-- Workers on a simulation. -/
structure Pool (ρ : Type) where
  simulation : Simulation
  workers : List (Worker ρ)
  stats : Stats := {}

variable {ρ : Type} [WordSource ρ]

def randomPosition (size : Vec) : StateM ρ Vec := do
  let x ← between 0 (size.x - 1)
  let y ← between 0 (size.y - 1)
  return ⟨x, y⟩

/-- Where a worker goes next. -/
def Worker.target (size : Vec) (follow : Option Vec) : StateM ρ Vec :=
  match follow with
  | some p => if p.inBounds size then pure p else randomPosition size
  | none => randomPosition size

def Worker.step (worker : Worker ρ) (sim : Simulation) (stats : Stats) :
    Except Failure (Worker ρ × Stats) × Simulation :=
  let (target, source) := (Worker.target sim.size worker.follow).run worker.source
  let (result, after) := (Simulation.tick target).run.run ⟨sim, source⟩
  match result with
  | .error error => (.error ⟨worker.number, target, error⟩, after.board)
  | .ok outcome =>
    let worker := { worker with source := after.source, follow := outcome.shift.map (target + ·) }
    let stats : Stats := ⟨stats.ticks + 1, stats.applied + outcome.applied.toUInt64⟩
    (.ok (worker, stats), after.board)

namespace Pool

/-- Lets each of some workers make a tick, up to the first failure. -/
def turns (sim : Simulation) (stats : Stats) :
    List (Worker ρ) → Except Failure (List (Worker ρ)) × Simulation × Stats
  | [] => (.ok [], sim, stats)
  | worker :: rest =>
    match worker.step sim stats with
    | (.error failure, sim) => (.error failure, sim, stats)
    | (.ok (worker, stats), sim) =>
      match turns sim stats rest with
      | (.error failure, sim, stats) => (.error failure, sim, stats)
      | (.ok rest, sim, stats) => (.ok (worker :: rest), sim, stats)

/-- Lets every worker make a tick, up to the first failure. -/
def round (pool : Pool ρ) : Option Failure × Pool ρ :=
  match turns pool.simulation pool.stats pool.workers with
  | (.ok workers, simulation, stats) => (none, ⟨simulation, workers, stats⟩)
  | (.error failure, simulation, stats) => (some failure, ⟨simulation, pool.workers, stats⟩)

/-- A number of rounds, or fewer if a worker fails. -/
def rounds : Nat → Pool ρ → Option Failure × Pool ρ
  | 0, pool => (none, pool)
  | n + 1, pool =>
    match pool.round with
    | (some failure, pool) => (some failure, pool)
    | (none, pool) => rounds n pool

end Pool

/-- The workers that the configuration of a simulation asks for. Without a seed in
the configuration, one that is taken from elsewhere counts. -/
def Simulation.pool (sim : Simulation) (otherwise : UInt64) : Pool Random.ChaCha where
  simulation := sim
  workers := (List.range sim.config.workers.toNat).map fun n =>
    { number := n, source := sim.config.stream otherwise (UInt64.ofNat n) }

end FallingSand
