import FallingSand.Proofs.Board.Covering
import FallingSand.Proofs.Simulation.Flat

/-!
# Reachable simulations

What can be reached from a new simulation by ticks, placements and clearing, in any
order, with any random words, and also past errors. A reachable simulation always
holds the cells of some snapshot, and that is the one that is taken of it.
-/

namespace FallingSand

open FallingSand.Engine
open FallingSand.Random (WordSource)

/-! ## Operations -/

/-- What can be done to a simulation. -/
inductive Operation where
  | tick (target : Vec)
  | place (p : Vec) (id : AtomId)
  | clear

namespace Operation

variable {ρ : Type} [WordSource ρ]

/-- An operation as an action, without its result. -/
def run : Operation → Action Simulation ρ Unit
  | tick target => do
    let _ ← Simulation.tick target
  | place p id => do
    let _ ← Simulation.place p id
  | clear => Simulation.clear

/-- The simulation after an operation, which may have failed. -/
def after (op : Operation) (sim : Simulation) (source : ρ) : Simulation :=
  (op.run.run.run ⟨sim, source⟩).2.board

/-- Whether an operation names types of the world only. -/
def Names (world : World) : Operation → Prop
  | place _ id => (world.atom? id).isSome
  | _ => True

end Operation

/-- The simulations of a world that can be reached under a configuration. Each operation
may draw from a source of its own. -/
inductive Reachable (world : World) (config : Config) : Simulation → Prop
  | start {ρ : Type} [WordSource ρ] {source : ρ} {sim : Simulation} :
      Simulation.start world config source = .ok sim → Reachable world config sim
  | step {ρ : Type} [WordSource ρ] {source : ρ} {sim : Simulation} (op : Operation) :
      Reachable world config sim → op.Names world →
      Reachable world config (op.after sim source)

/-- A configuration whose sides and whose area leave room for positions and tiles. -/
structure Config.Fits (c : Config) : Prop where
  width : c.width.toNat + c.tileSize.toNat < 2147483648
  height : c.height.toNat + c.tileSize.toNat < 2147483648
  area : c.width.toNat * c.height.toNat < 2147483648

/-! ## Operations on snapshots -/

variable {world : World} {S : Standard world} {config : Config} {sim : Simulation}
  {s : Snapshot}

section Operations

variable {ρ : Type} [WordSource ρ]

/-- What an operation does to a snapshot. -/
def Operation.flat (world : World) (size : Vec) : Operation → Action Snapshot ρ Unit
  | tick target => do
    let _ ← Engine.tick world target
  | place p id => do
    let _ ← Flat.retypeRectOn world size ((world.atom id).brush p).1 ((world.atom id).brush p).2
      id fun cell => cell.atom == world.empty
  | clear => do
    let _ ← Flat.retypeRectOn world size Vec.zero (size - Vec.one) world.empty fun _ => true

theorem Flat.coupled_place (p : Vec) (id : AtomId) :
    Coupled (flatTie S config) Eq (Simulation.place p id : Action Simulation ρ Nat)
      (retypeRectOn world config.gridSize ((world.atom id).brush p).1
        ((world.atom id).brush p).2 id fun cell => cell.atom == world.empty) := by
  intro sim s source boards
  unfold Simulation.place
  rw [exec_get_bind]
  dsimp only
  rw [boards.ofWorld]
  exact coupled_retypeRect _ _ id (fun world cell => cell.atom == world.empty) sim s source boards

theorem Flat.coupled_clear :
    Coupled (flatTie S config) Eq (Simulation.clear : Action Simulation ρ Unit)
      (Operation.clear.flat world config.gridSize) := by
  intro sim s source boards
  have size : sim.size = config.gridSize := boards.same.gridSize
  unfold Simulation.clear
  rw [exec_get_bind]
  dsimp only
  rw [size, boards.ofWorld]
  have filled : Coupled (flatTie S config) Eq _ _ :=
    coupled_retypeRect (ρ := ρ) Vec.zero (config.gridSize - Vec.one) world.empty fun _ _ => true
  exact filled.bind (fun _ _ _ => Coupled.pure rfl) sim s source boards

theorem Flat.coupled_operation (suits : Suits S config) (op : Operation) :
    Coupled (flatTie S config) Eq (op.run : Action Simulation ρ Unit)
      (op.flat world config.gridSize) := by
  cases op with
  | tick target => exact (coupled_tick suits target).bind fun _ _ _ => Coupled.pure rfl
  | place p id => exact (coupled_place p id).bind fun _ _ _ => Coupled.pure rfl
  | clear => exact coupled_clear

end Operations

/-! ## New simulations -/

/-- Whether a simulation of a world is made under a configuration. -/
structure Accepts (world : World) (config : Config) : Prop where
  valid : config.flaw? = none
  reach : ∀ entry ∈ world.rules, entry.2.reach.toNat ≤ config.tileSize.toNat

namespace Accepts

theorem sides (accepts : Accepts world config) :
    0 < config.width.toNat ∧ 0 < config.height.toNat ∧ 0 < config.tileSize.toNat :=
  Config.sides_pos accepts.valid

end Accepts

/-- A new simulation, before properties are worked out. -/
def Simulation.fresh (world : World) (config : Config) : Simulation :=
  ⟨world, config, .filled config.width config.height config.tileSize
    (world.atom world.empty).newCell⟩

/-- A start that gets as far as its grid fails there, or has the cells of a new simulation worked
out. -/
theorem start_of_grid {ρ : Type} [WordSource ρ] {source : ρ} {outcome : Except _ Simulation}
    (h : outcome = match Grid.make? config.width config.height config.tileSize
        (world.atom world.empty).newCell with
      | some grid => Simulation.prepare ⟨world, config, grid⟩ source
      | none => throw (.config .overflow)) :
    (∃ flaw, outcome = .error (.config flaw)) ∨
      outcome = (Simulation.fresh world config).prepare source := by
  unfold Grid.make? at h
  split at h
  · rename_i made
    split at made
    · cases made
      exact .inr h
    · cases made
  · exact .inl ⟨_, h⟩

/-- A start is refused for the configuration or for a rule, or else it is accepted. -/
theorem start_cases {ρ : Type} [WordSource ρ] (world : World) (config : Config) (source : ρ) :
    (∃ flaw, Simulation.start world config source = .error (.config flaw)) ∨
    (∃ atom rule reach size,
      Simulation.start world config source = .error (.ruleTooLarge atom rule reach size)) ∨
    (Accepts world config ∧
      Simulation.start world config source = (Simulation.fresh world config).prepare source) := by
  unfold Simulation.start Config.validate
  cases valid : config.flaw? with
  | some flaw => exact .inl ⟨flaw, rfl⟩
  | none =>
    cases farthest : world.farthest? with
    | none =>
      have reach : ∀ entry ∈ world.rules, entry.2.reach.toNat ≤ config.tileSize.toNat := by
        intro entry member
        have := world.farthest?_isSome member
        rw [farthest] at this
        cases this
      exact (start_of_grid rfl).imp_right fun made => .inr ⟨⟨valid, reach⟩, made⟩
    | some best =>
      obtain ⟨atom, rule⟩ := best
      by_cases far : config.tileSize < rule.reach
      · refine .inr (.inl ⟨atom.name, rule.id, rule.reach, config.tileSize, ?_⟩)
        show (if config.tileSize < rule.reach then _ else _ : Except _ _) = _
        rw [if_pos far]
        rfl
      have reach : ∀ entry ∈ world.rules, entry.2.reach.toNat ≤ config.tileSize.toNat := by
        intro entry member
        have := world.reach_le_farthest member farthest
        rw [UInt32.lt_iff_toNat_lt] at far
        dsimp only at this
        omega
      refine (start_of_grid ?_).imp_right fun made => .inr ⟨⟨valid, reach⟩, made⟩
      show (if config.tileSize < rule.reach then _ else _ : Except _ _) = _
      exact if_neg far

/-- A simulation that is started has nothing to be worked out for its cells, or else it was
cleared. -/
theorem start_ok {ρ : Type} [WordSource ρ] {source : ρ}
    (h : Simulation.start world config source = .ok sim) : Accepts world config ∧
      ((world.atom world.empty).init = [] ∧ sim = .fresh world config ∨
        ∃ after, exec Simulation.clear ⟨.fresh world config, source⟩ = (.ok (), after) ∧
          sim = after.board) := by
  rcases start_cases world config source with ⟨flaw, refused⟩ | ⟨_, _, _, _, refused⟩ |
    ⟨accepts, prepared⟩
  · rw [refused] at h
    cases h
  · rw [refused] at h
    cases h
  refine ⟨accepts, ?_⟩
  rw [prepared] at h
  unfold Simulation.prepare at h
  split at h
  · rename_i nothing
    cases h
    exact .inl ⟨List.isEmpty_iff.mp nothing, rfl⟩
  · split at h
    · rename_i cleared
      cases h
      exact .inr ⟨_, cleared, rfl⟩
    · cases h

theorem Flat.fresh (accepts : Accepts world config) (fits : config.Fits) :
    Flat S config (Simulation.fresh world config)
      (.filled config.gridSize (world.atom world.empty).newCell) := by
  obtain ⟨width, height, tile⟩ := accepts.sides
  obtain ⟨wellFormed, cells⟩ := Grid.filled_spec (world.atom world.empty).newCell tile
    ⟨width, fits.width.le⟩ ⟨height, fits.height.le⟩ fits.area
  have outside (p : Vec) (h : p.inBounds config.gridSize = false) :
      (Snapshot.filled config.gridSize (world.atom world.empty).newCell).cell? p = none :=
    Snapshot.cell?_eq_none h
  refine ⟨rfl, rfl, wellFormed, rfl, ?_, Snapshot.full_filled _ _, rfl, ?_, ?_⟩
  · show (max config.tileSize 1).toInt32 = config.tileSize.toInt32
    rw [Grid.max_one_eq tile]
  · intro p
    cases inside : p.inBounds config.gridSize with
    | true =>
      rw [Snapshot.cell?_filled _ inside]
      exact cells p inside
    | false =>
      rw [outside p inside]
      exact Grid.cell?_eq_none inside
  · intro p cell found
    rw [Snapshot.eq_of_cell?_filled found]
    exact S.good_new _

/-- Under an accepted configuration that leaves room, ticks stay on their locks. -/
theorem Accepts.suits (accepts : Accepts world config) (fits : config.Fits)
    (shaped : ∀ id, ∀ rule ∈ (world.atom id).allRules,
      rule.anchor.inBounds rule.size = true)
    (knows : ∀ id, ∀ rule ∈ (world.atom id).allRules, ∀ e ∈ rule.exprs, ∀ slot ∈ e.slots,
      Knows world S.good S.allowed slot.name) : Flat.Suits S config := by
  have := fits.width
  have tile : config.tileSize.toInt32.toInt = config.tileSize.toNat := toInt_toInt32 (by omega)
  obtain ⟨-, -, positive⟩ := accepts.sides
  refine ⟨by omega, fun id rule member => ⟨shaped id rule member, ?_, knows id rule member⟩⟩
  have := accepts.reach _ (world.mem_rules member)
  dsimp only at this
  omega

/-! ## Reachable simulations -/

theorem Reachable.accepts (reachable : Reachable world config sim) : Accepts world config := by
  induction reachable with
  | @start ρ _ source sim started => exact (start_ok started).1
  | step _ _ _ ih => exact ih

/-- An action does to a simulation what its flat counterpart does to a snapshot, by the same
draws, and it fails only as it is allowed to. -/
theorem Flat.exec_eq {ρ α : Type} {m : Action Simulation ρ α} {n : Action Snapshot ρ α}
    (coupled : Coupled (flatTie S config) Eq m n) (flat : Flat S config sim s) (source : ρ) :
    ∃ cells, exec n ⟨s, source⟩ =
        ((exec m ⟨sim, source⟩).1, ⟨cells, (exec m ⟨sim, source⟩).2.source⟩) ∧
      Flat S config (exec m ⟨sim, source⟩).2.board cells ∧
      ∀ e, (exec m ⟨sim, source⟩).1 = .error e → S.allowed e := by
  have ends := coupled sim s source flat
  revert ends
  generalize exec m ⟨sim, source⟩ = left
  generalize exec n ⟨s, source⟩ = right
  intro ends
  cases ends with
  | result same boards =>
    cases same
    exact ⟨_, rfl, boards, fun e h => (nomatch h)⟩
  | fault faults =>
    obtain ⟨⟨rfl, allowed⟩, boards⟩ := faults
    refine ⟨_, rfl, boards, ?_⟩
    intro e h
    cases h
    exact allowed

theorem Flat.allowed_of_error {ρ α : Type} {m : Action Simulation ρ α}
    {n : Action Snapshot ρ α} (coupled : Coupled (flatTie S config) Eq m n)
    (flat : Flat S config sim s) {source : ρ} {e : Engine.Error}
    (h : (m.run.run ⟨sim, source⟩).1 = .error e) : S.allowed e := by
  obtain ⟨-, -, -, allowed⟩ := flat.exec_eq coupled source
  exact allowed e h

/-- An operation leaves the cells of some snapshot behind, also when it fails. -/
theorem Flat.after (suits : Suits S config) {ρ : Type} [WordSource ρ] (op : Operation)
    (source : ρ) (flat : Flat S config sim s) : ∃ s', Flat S config (op.after sim source) s' := by
  obtain ⟨cells, -, flat', -⟩ := flat.exec_eq (coupled_operation suits op) source
  exact ⟨cells, flat'⟩

theorem Reachable.exists_flat (reachable : Reachable world config sim) (fits : config.Fits)
    (suits : Flat.Suits S config) : ∃ s, Flat S config sim s := by
  induction reachable with
  | @start ρ _ source sim started =>
    obtain ⟨accepts, ⟨-, rfl⟩ | ⟨after, cleared, rfl⟩⟩ := start_ok started
    · exact ⟨_, Flat.fresh accepts fits⟩
    -- Otherwise the start works out the properties of all cells, as clearing does.
    · have flat := Flat.after suits .clear source (Flat.fresh (S := S) accepts fits)
      have same : Operation.after .clear (Simulation.fresh world config) source = after.board :=
        congrArg (fun r => r.2.board) cleared
      rwa [same] at flat
  | step op _ _ ih =>
    obtain ⟨s, flat⟩ := ih
    exact Flat.after suits op _ flat

/-- A start that is accepted fails only as it is allowed to. -/
theorem allowed_of_start (fits : config.Fits) {ρ : Type} [WordSource ρ] {source : ρ}
    {e : Engine.Error}
    (h : Simulation.start world config source = .error (.action e)) : S.allowed e := by
  rcases start_cases world config source with ⟨flaw, refused⟩ | ⟨_, _, _, _, refused⟩ |
    ⟨accepts, prepared⟩
  · rw [refused] at h
    cases h
  · rw [refused] at h
    cases h
  rw [prepared] at h
  unfold Simulation.prepare at h
  split at h
  · cases h
  split at h
  · cases h
  · rename_i failed
    cases h
    exact Flat.allowed_of_error Flat.coupled_clear (Flat.fresh accepts fits)
      (congrArg Prod.fst failed)

/-! ## Looking at a simulation -/

namespace Flat

theorem cell?_eq (flat : Flat S config sim s) (p : Vec) : sim.cell? p = s.cell? p := by
  have size : sim.size = config.gridSize := flat.same.gridSize
  rw [← flat.same.cells]
  unfold Simulation.cell?
  split
  · rename_i inside
    refine Region.cell?_of_contains ?_
    exact flat.same.wellFormed.contains_lockRect inside inside inside ⟨le_rfl, le_rfl⟩
      ⟨le_rfl, le_rfl⟩
  · rename_i outside
    exact (Grid.cell?_eq_none (Bool.eq_false_iff.mpr outside)).symm

/-- A snapshot of a simulation is the one whose cells it has, whatever it replaces. -/
theorem snapshotInto_eq_of_size (flat : Flat S config sim s) {buffer : Snapshot}
    (full : buffer.size = sim.size → buffer.Full) : sim.snapshotInto buffer = s := by
  -- With all tiles locked the region has every cell of the grid.
  have whole (p : Vec) : Board.cell? sim.whole p = sim.grid.cell? p := by
    by_cases inside : p.inBounds sim.grid.size = true
    · exact Region.cell?_of_contains (flat.same.wellFormed.contains_lockAll inside)
    · have outside := Bool.eq_false_iff.mpr inside
      rw [Grid.cell?_eq_none outside]
      show sim.whole.cell? p = none
      rw [Region.cell?, Region.contains, show sim.whole.grid = sim.grid from rfl, outside,
        Bool.false_and]
      rfl
  obtain ⟨full', size', cells'⟩ := Snapshot.copyFrom_spec buffer sim.whole full
    (fun p inside => by
      obtain ⟨cell, found⟩ := flat.same.wellFormed.exists_cell inside
      rw [whole, found]
      rfl)
    (fun p outside => by
      rw [whole]
      exact Grid.cell?_eq_none outside)
  refine Snapshot.Full.ext full' flat.same.full ?_ ?_
  · exact (size'.trans flat.same.gridSize).trans flat.same.flatSize.symm
  · intro p
    rw [← flat.same.cells, ← whole]
    exact cells' p

theorem snapshotInto_eq (flat : Flat S config sim s) {buffer : Snapshot} (full : buffer.Full) :
    sim.snapshotInto buffer = s := flat.snapshotInto_eq_of_size fun _ => full

theorem snapshot_eq (flat : Flat S config sim s) : sim.snapshot = s :=
  flat.snapshotInto_eq Snapshot.full_empty

end Flat

end FallingSand
