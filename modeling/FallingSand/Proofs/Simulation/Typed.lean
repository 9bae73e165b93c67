import FallingSand.Proofs.Engine.Completing
import FallingSand.Proofs.Simulation.Refinement

/-!
# Typed simulations

Every cell of a reachable simulation is typed, whatever has failed on the way: a cell
is written as a new one, as a copy of one that was there, or with a property more.
Where nothing has failed yet, no change of type has been left half done, so the cells
are complete as well.
-/

namespace FallingSand

open FallingSand.Engine
open FallingSand.Random (WordSource)

variable {world : World} {config : Config} {sim : Simulation} {s : Snapshot}

/-! ## Typed cells -/

/-- Typed cells, and any errors. -/
def typingStandard (regular : world.Regular) : Standard world where
  good := Cell.Typed world
  allowed _ := True
  good_set name x typed := typed.set name x
  good_new id := .new regular.numbered regular.few id
  initial id entry member slot hslot :=
    ⟨(regular.shaped id).init entry member slot hslot, fun _ _ _ _ => trivial⟩
  allowed_formula _ _ := trivial
  allowed_direction := trivial

theorem typingStandard_suits (regular : world.Regular) (fits : config.Fits)
    (accepts : Accepts world config) : Flat.Suits (typingStandard regular) config :=
  accepts.suits fits regular.anchored fun _ _ _ _ _ _ _ _ _ _ _ => trivial

/-! ## Complete cells -/

/-- The simulations that can be reached without an error. -/
inductive Undisturbed (world : World) (config : Config) : Simulation → Prop
  | start {ρ : Type} [WordSource ρ] {source : ρ} {sim : Simulation} :
      Simulation.start world config source = .ok sim → Undisturbed world config sim
  | step {ρ : Type} [WordSource ρ] {source : ρ} {sim : Simulation} (op : Operation) :
      Undisturbed world config sim → op.Names world →
      (op.run.run.run ⟨sim, source⟩).1 = .ok () →
      Undisturbed world config (op.after sim source)

theorem Undisturbed.reachable (undisturbed : Undisturbed world config sim) :
    Reachable world config sim := by
  induction undisturbed with
  | start started => exact .start started
  | step op _ names _ ih => exact .step op ih names

/-! ## Operations without errors -/

section Operations

variable {ρ : Type} [WordSource ρ] {size : Vec} {source : ρ} {after : State Snapshot ρ}
  (regular : world.Regular) (hx : 0 < size.x.toInt) (hy : 0 < size.y.toInt)

include regular hx hy

theorem refilled_of_retypeRectOn {low high : Vec} {id : AtomId} {chosen : Cell → Bool}
    (full : s.Full) (hs : s.size = size) {n : Nat}
    (h : exec (Flat.retypeRectOn world size low high id chosen) ⟨s, source⟩ = (.ok n, after)) :
    Refilled ρ world chosen id (Vec.rectangle (low.max Vec.zero) (high.min (size - Vec.one))) s
      after.board := by
  rw [Flat.retypeRectOn_eq] at h
  refine (refilled_of_foldlM (regular.shaped id) full (Vec.nodup_rectangle _ _) ?_ h).1
  intro p member
  rw [hs]
  exact ((Vec.mem_clipped hx.le hy.le).mp member).1

/-- Clearing makes every cell complete, also on a board that was not. -/
theorem completed_of_clear (full : s.Full) (hs : s.size = size)
    (h : exec (Operation.clear.flat world size) ⟨s, source⟩ = (.ok (), after)) :
    Completed world size after.board := by
  obtain ⟨n, h⟩ := exec_discard h
  refine (refilled_of_retypeRectOn regular hx hy full hs h).completed regular full hs ?_
  intro p cell found spared
  have inside := Snapshot.inBounds_of_cell? found
  rw [hs] at inside
  cases spared ((Vec.mem_clipped hx.le hy.le).mpr ⟨inside, Vec.mem_rectangle_whole inside⟩)

/-- No operation that does not fail leaves a cell incomplete. -/
theorem Operation.completed (op : Operation) (completed : Completed world size s)
    (h : exec (op.flat world size) ⟨s, source⟩ = (.ok (), after)) :
    Completed world size after.board := by
  cases op with
  | tick target =>
    obtain ⟨outcome, h⟩ := exec_discard h
    exact completed.tick regular h
  | place p id =>
    obtain ⟨n, h⟩ := exec_discard h
    exact (refilled_of_retypeRectOn regular hx hy completed.full completed.size h).completed
      regular completed.full completed.size fun p cell found _ => completed.cells p cell found
  | clear => exact completed_of_clear regular hx hy completed.full completed.size h

end Operations

/-! ## Runs -/

theorem Accepts.gridSize_pos (accepts : Accepts world config) (fits : config.Fits) :
    0 < config.gridSize.x.toInt ∧ 0 < config.gridSize.y.toInt := by
  obtain ⟨width, height, -⟩ := accepts.sides
  have := fits.width
  have := fits.height
  have x : config.gridSize.x.toInt = config.width.toNat := toInt_toInt32 (by omega)
  have y : config.gridSize.y.toInt = config.height.toNat := toInt_toInt32 (by omega)
  omega

/-- A new simulation starts with complete cells, as nothing is left to be worked out for
them or all of them are cleared. -/
theorem completed_of_start (regular : world.Regular) (fits : config.Fits) {ρ : Type}
    [WordSource ρ] {source : ρ} (started : Simulation.start world config source = .ok sim) :
    ∃ s, Flat (typingStandard regular) config sim s ∧ Completed world config.gridSize s := by
  obtain ⟨accepts, start⟩ := start_ok started
  obtain ⟨hx, hy⟩ := accepts.gridSize_pos fits
  have fresh : Flat (typingStandard regular) config (Simulation.fresh world config)
      (.filled config.gridSize (world.atom world.empty).newCell) := Flat.fresh accepts fits
  rcases start with ⟨nothing, rfl⟩ | ⟨after, cleared, rfl⟩
  · refine ⟨_, fresh, fresh.same.full, fresh.same.flatSize, ?_⟩
    intro p cell found
    rw [Snapshot.eq_of_cell?_filled found]
    refine ⟨.new regular.numbered regular.few world.empty, ?_⟩
    intro entry member
    rw [regular.numbered.atom_newCell regular.few, nothing] at member
    cases member
  · obtain ⟨cells, ran, flat, -⟩ := fresh.exec_eq Flat.coupled_clear source
    rw [cleared] at ran flat
    exact ⟨_, flat, completed_of_clear regular hx hy fresh.same.full fresh.same.flatSize ran⟩

/-- As long as nothing fails all cells are complete. -/
theorem Undisturbed.exists_completed (regular : world.Regular) (fits : config.Fits)
    (undisturbed : Undisturbed world config sim) :
    ∃ s, Flat (typingStandard regular) config sim s ∧ Completed world config.gridSize s := by
  induction undisturbed with
  | @start ρ _ source sim started => exact completed_of_start regular fits started
  | @step ρ _ source sim op before names succeeds ih =>
    obtain ⟨s, flat, completed⟩ := ih
    have accepts := before.reachable.accepts
    obtain ⟨hx, hy⟩ := accepts.gridSize_pos fits
    have suits := typingStandard_suits regular fits accepts
    obtain ⟨cells, ran, flat', -⟩ := flat.exec_eq (Flat.coupled_operation suits op) source
    rw [show (exec op.run ⟨sim, source⟩).1 = .ok () from succeeds] at ran
    exact ⟨_, flat', op.completed regular hx hy completed ran⟩

/-- In a reachable simulation every position of the grid holds a cell of a type of the world,
with all properties that the type declares for its cells, also past errors. As long as nothing
has failed each cell has the properties as well that its type works out for new cells. -/
theorem reachable_typed {source : List Char} {compiled : Script.Compiled}
    (h : Script.compile source = .ok compiled) (few : compiled.world.atoms.size ≤ 65536)
    (fits : config.Fits) (reachable : Reachable compiled.world config sim) :
    sim.size = config.gridSize ∧
      ∀ p, p.inBounds sim.size = true → ∃ cell, sim.cell? p = some cell ∧
        (compiled.world.atom? cell.atom).isSome ∧
        (∀ name, ((compiled.world.atom cell.atom).properties.get? name).isSome →
          (cell.properties.get? name).isSome) ∧
        (Undisturbed compiled.world config sim →
          ∀ entry ∈ (compiled.world.atom cell.atom).init,
            (cell.properties.get? entry.1).isSome) := by
  have regular := Script.regular_of_compile h few
  have suits := typingStandard_suits regular fits reachable.accepts
  obtain ⟨s, flat⟩ := reachable.exists_flat fits suits
  have size : sim.size = config.gridSize := flat.same.gridSize
  refine ⟨size, ?_⟩
  intro p inside
  rw [size] at inside
  obtain ⟨cell, -, found, typed⟩ := flat.same.exists_cell inside
  have here := (flat.cell?_eq p).trans found
  refine ⟨cell, here, typed.known, typed.properties, ?_⟩
  intro undisturbed
  obtain ⟨t, flat', completed⟩ := undisturbed.exists_completed regular fits
  exact (completed.cells p cell ((flat'.cell?_eq p).symm.trans here)).initial

/-! ## A simulation with a cell that is worked out -/

namespace Script

/-- A script with a type that declares a property and works another one out from it. -/
def glowing : List Char :=
  ["atom Empty \x7b", "\x7d",
   "atom Ember \x7b",
   "section property \x7b", "def heat 1", "\x7d",
   "section init \x7b", "set [glow] = [heat] + 9", "\x7d",
   "\x7d"].flatMap fun line => line.toList ++ ['\n']

theorem glowing_compiles : (compile glowing).toOption.isSome = true := by decide +kernel

def glown : Compiled := (compile glowing).toOption.get glowing_compiles

theorem compile_glowing : compile glowing = .ok glown :=
  eq_ok_of_toOption (Option.some_get glowing_compiles).symm

end Script

theorem dark_starts :
    (Simulation.start Script.glown.world smallConfig (⟨0⟩ : Random.SplitMix)).toOption.isSome =
      true := by
  decide +kernel

def dark : Simulation :=
  (Simulation.start Script.glown.world smallConfig (⟨0⟩ : Random.SplitMix)).toOption.get dark_starts

/-- The simulation with embers placed at the corner. -/
def lit : Simulation := (Operation.place ⟨0, 0⟩ 1).after dark (⟨7⟩ : Random.SplitMix)

theorem lit_undisturbed : Undisturbed Script.glown.world smallConfig lit := by
  have started := Script.eq_ok_of_toOption (Option.some_get dark_starts).symm
  have known : (Script.glown.world.atom? 1).isSome = true := by decide +kernel
  refine .step _ (.start started) known ?_
  exact Script.eq_ok_of_toOption (by decide +kernel)

theorem lit_typed : ∃ cell, lit.cell? ⟨0, 0⟩ = some cell ∧ cell.atom = 1 ∧
    (cell.properties.get? "heat").isSome ∧ (cell.properties.get? "glow").isSome := by
  obtain ⟨-, typed⟩ := reachable_typed Script.compile_glowing (by decide +kernel)
    smallConfig_fits lit_undisturbed.reachable
  obtain ⟨cell, here, -, declared, worked⟩ := typed ⟨0, 0⟩ (by decide +kernel)
  have placed : (lit.cell? ⟨0, 0⟩).map (·.atom) = some 1 := by decide +kernel
  rw [here] at placed
  have atom : cell.atom = 1 := Option.some.inj placed
  rw [atom] at declared worked
  refine ⟨cell, here, atom, declared "heat" (by decide +kernel), ?_⟩
  obtain ⟨entry, member, name⟩ :
      ∃ entry ∈ (Script.glown.world.atom 1).init, entry.1 = "glow" := by
    decide +kernel
  rw [← name]
  exact worked lit_undisturbed entry member

end FallingSand
