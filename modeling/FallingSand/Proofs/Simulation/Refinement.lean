import FallingSand.Proofs.Script.Shape
import FallingSand.Proofs.Simulation.Reachable

/-!
# Locks cannot be felt

A tick of a reachable simulation sees no more than the block of tiles around its
target, and yet it does what a tick on a plain board with the same cells does. So
no tick of a compiled world asks for a cell that is not locked.
-/

namespace FallingSand

open FallingSand.Engine
open FallingSand.Random (WordSource)

/-- Whether an error says that a cell is not locked. -/
def Engine.Error.OfLock : Engine.Error → Prop
  | .unlocked _ => True
  | .eval (.inaccessible _ _) => True
  | _ => False

/-- Any cells, and any errors but those of a lock. -/
def lockStandard {world : World} (shaped : ∀ id, (world.atom id).Shaped) : Standard world where
  good _ := True
  allowed e := ¬e.OfLock
  good_set _ _ _ := trivial
  good_new _ := trivial
  initial id entry member slot hslot :=
    ⟨(shaped id).init entry member slot hslot, fun _ _ _ _ h => h⟩
  allowed_formula _ _ h := h
  allowed_direction h := h

variable {source : List Char} {compiled : Script.Compiled} {config : Config} {sim : Simulation}

theorem lockStandard_suits (h : Script.compile source = .ok compiled) (fits : config.Fits)
    (reachable : Reachable compiled.world config sim) :
    Flat.Suits (lockStandard fun id => (Script.shaped_atom h id).1) config :=
  reachable.accepts.suits fits
    (fun id rule member => ((Script.shaped_atom h id).2 rule member).anchored)
    (fun _ _ _ _ _ _ _ _ _ _ _ h => h)

/-- A snapshot that is taken of a reachable simulation has all of its cells. -/
theorem snapshot_spec (h : Script.compile source = .ok compiled) (fits : config.Fits)
    (reachable : Reachable compiled.world config sim) :
    sim.snapshot.Full ∧ sim.snapshot.size = sim.size ∧
      ∀ p, sim.snapshot.cell? p = sim.cell? p := by
  obtain ⟨s, flat⟩ := reachable.exists_flat fits (lockStandard_suits h fits reachable)
  rw [flat.snapshot_eq]
  exact ⟨flat.same.full, flat.same.flatSize.trans flat.same.gridSize.symm,
    fun p => (flat.cell?_eq p).symm⟩

/-- A tick under a lock is a tick on a plain board with the same cells: the result, the
draws and all cells afterwards are the same, and no error comes from the lock. -/
theorem tick_refines_flat (h : Script.compile source = .ok compiled) (fits : config.Fits)
    (reachable : Reachable compiled.world config sim) {s : Snapshot} (full : s.Full)
    (size : s.size = sim.size) (cells : ∀ p, s.cell? p = sim.cell? p) {ρ : Type}
    [WordSource ρ] (target : Vec) (words : ρ) :
    let tiled := (Simulation.tick target).run.run (⟨sim, words⟩ : State Simulation ρ)
    let flat := (Engine.tick compiled.world target).run.run (⟨s, words⟩ : State Snapshot ρ)
    tiled.1 = flat.1 ∧ tiled.2.source = flat.2.source ∧
      tiled.2.board.size = flat.2.board.size ∧
      (∀ p, tiled.2.board.cell? p = flat.2.board.cell? p) ∧
      tiled.2.board.snapshot = flat.2.board ∧
      (∀ p, tiled.1 ≠ .error (.unlocked p)) ∧
      ∀ offset text, tiled.1 ≠ .error (.eval (.inaccessible offset text)) := by
  intro tiled flat
  have suits := lockStandard_suits h fits reachable
  have same : Flat (lockStandard fun id => (Script.shaped_atom h id).1) config sim s := by
    obtain ⟨s', known⟩ := reachable.exists_flat fits suits
    have equal : s = s' := full.ext known.same.full
      (size.trans (known.same.gridSize.trans known.same.flatSize.symm))
      fun p => (cells p).trans (known.cell?_eq p)
    rw [equal]
    exact known
  have ends : (flatTie _ config).Ends Eq tiled flat :=
    Flat.coupled_tick suits target sim s words same
  revert ends
  generalize tiled = left
  generalize flat = right
  intro ends
  cases ends with
  | result equal after =>
    subst equal
    exact ⟨rfl, rfl, after.same.gridSize.trans after.same.flatSize.symm, after.cell?_eq,
      after.snapshot_eq, fun p impossible => (nomatch impossible),
      fun offset text impossible => (nomatch impossible)⟩
  | fault faults =>
    obtain ⟨⟨rfl, allowed⟩, after⟩ := faults
    refine ⟨rfl, rfl, after.same.gridSize.trans after.same.flatSize.symm, after.cell?_eq,
      after.snapshot_eq, fun p impossible => ?_, fun offset text impossible => ?_⟩
    · cases impossible
      exact allowed trivial
    · cases impossible
      exact allowed trivial

/-! ## Sand at both ends of a grid -/

/-- A grid of six tiles by two. -/
def wideConfig : Config := { width := 12, height := 4, tileSize := 2, workers := 1 }

theorem wideConfig_fits : wideConfig.Fits := ⟨by decide, by decide, by decide⟩

theorem wide_starts :
    (Simulation.start Script.sunk.world wideConfig (⟨0⟩ : Random.SplitMix)).toOption.isSome =
      true := by
  decide +kernel

/-- The simulation with sand in the upper rows of both ends. -/
def twoHeaps : Simulation :=
  let start := (Simulation.start Script.sunk.world wideConfig
    (⟨0⟩ : Random.SplitMix)).toOption.get wide_starts
  let left := (Operation.place ⟨0, -1⟩ 1).after start (⟨1⟩ : Random.SplitMix)
  (Operation.place ⟨11, -1⟩ 1).after left (⟨2⟩ : Random.SplitMix)

theorem twoHeaps_reachable : Reachable Script.sunk.world wideConfig twoHeaps := by
  have started := Script.eq_ok_of_toOption (Option.some_get wide_starts).symm
  have known : (Script.sunk.world.atom? 1).isSome = true := by decide +kernel
  exact .step _ (.step _ (.start started) known) known

/-- The sand at the lower end of the left heap has an empty cell below, so that its only rule fits.
The lock has four of the twelve tiles. -/
theorem twoHeaps_tick_refines_flat :
    ((Script.sunk.world.atom 1).allRules.map fun rule =>
      ((fitsAt Script.sunk.world (Script.sunk.world.atom 1) rule ⟨0, 1⟩ .identity).run.run
        (⟨twoHeaps.snapshot, ⟨7⟩⟩ : State Snapshot Random.SplitMix)).1.toOption) = [some true] ∧
    twoHeaps.grid.lockedTiles (twoHeaps.grid.lockBlock ⟨0, 1⟩) = [0, 1, 6, 7] ∧
    let tiled := (Simulation.tick ⟨0, 1⟩).run.run
      (⟨twoHeaps, ⟨7⟩⟩ : State Simulation Random.SplitMix)
    let flat := (Engine.tick Script.sunk.world ⟨0, 1⟩).run.run
      (⟨twoHeaps.snapshot, ⟨7⟩⟩ : State Snapshot Random.SplitMix)
    tiled.1 = flat.1 ∧ tiled.2.source = flat.2.source ∧ tiled.2.board.snapshot = flat.2.board := by
  obtain ⟨full, size, cells⟩ :=
    snapshot_spec Script.compile_sinking wideConfig_fits twoHeaps_reachable
  obtain ⟨result, draws, -, -, board, -⟩ := tick_refines_flat Script.compile_sinking
    wideConfig_fits twoHeaps_reachable full size cells ⟨0, 1⟩ (⟨7⟩ : Random.SplitMix)
  exact ⟨by decide +kernel, by decide +kernel, result, draws, board⟩

/-! ## An empty grid -/

/-- A grid of two tiles by two, with smaller tiles at the right edge. -/
def smallConfig : Config := { width := 3, height := 4, tileSize := 2, workers := 1 }

theorem smallConfig_fits : smallConfig.Fits := ⟨by decide, by decide, by decide⟩

theorem sunk_starts :
    (Simulation.start Script.sunk.world smallConfig (⟨0⟩ : Random.SplitMix)).toOption.isSome =
      true := by
  decide +kernel

def sunkSim : Simulation :=
  (Simulation.start Script.sunk.world smallConfig (⟨0⟩ : Random.SplitMix)).toOption.get sunk_starts

theorem sunkSim_reachable : Reachable Script.sunk.world smallConfig sunkSim :=
  .start (Script.eq_ok_of_toOption (Option.some_get sunk_starts).symm)

end FallingSand
