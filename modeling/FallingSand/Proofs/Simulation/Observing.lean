import FallingSand.Proofs.Board.Listing
import FallingSand.Proofs.Simulation.Refinement

/-!
# What is seen of a simulation

A snapshot that is taken of a simulation that can be reached shows its cells, whatever the
snapshot held before: at the positions, in the list of all cells row by row, and in the numbers
of the cells of each type. What is done to the simulation later does not change it
(`snapshotInto_shows`).
-/

namespace FallingSand

open FallingSand.Engine
open FallingSand.Random (WordSource)

/-- How many cells of a simulation have a type. -/
def Simulation.count (sim : Simulation) (id : AtomId) : Nat :=
  sim.size.positions.countP fun p => (sim.cell? p).any (·.atom == id)

/-- Whether a snapshot shows the cells of a simulation in all ways to look at it. -/
structure Snapshot.Shows (s : Snapshot) (sim : Simulation) : Prop where
  size : s.size = sim.size
  cells : ∀ p, s.cell? p = sim.cell? p
  length : s.entries.length = sim.size.area
  /-- The entries are in rows. -/
  entry : ∀ {column row : Nat}, column < sim.size.columns → row < sim.size.rows →
    ∃ cell, sim.cell? (.ofNat column row) = some cell ∧
      s.entries[row * sim.size.columns + column]? = some (.ofNat column row, cell)
  once : ∀ p, p.inBounds sim.size = true → (s.entries.map Prod.fst).count p = 1
  /-- The largest type that there is is the last one that is counted. -/
  largest : ∃ p cell, sim.cell? p = some cell ∧ cell.atom.toNat + 1 = s.population.size
  below : ∀ p cell, sim.cell? p = some cell → cell.atom.toNat < s.population.size
  counted : ∀ id : AtomId, id.toNat < s.population.size →
    s.population[id.toNat]? = some (sim.count id)
  summed : s.population.toList.sum = sim.config.width.toNat * sim.config.height.toNat

/-! ## Taking a snapshot -/

variable {source : List Char} {compiled : Script.Compiled} {config : Config} {sim : Simulation}
  {s : Snapshot}

theorem Config.Fits.area_gridSize (fits : config.Fits) :
    config.gridSize.area = config.width.toNat * config.height.toNat := by
  have := fits.width
  have := fits.height
  have width : config.width.toInt32.toInt = _ := toInt_toInt32 (by omega)
  have height : config.height.toInt32.toInt = _ := toInt_toInt32 (by omega)
  simp only [Vec.area, Vec.columns, Vec.rows, Config.gridSize, Int32.toNatClampNeg, width, height,
    Int.toNat_natCast]

/-- A snapshot with the cells of a simulation shows them in all ways. -/
theorem Snapshot.Full.shows (full : s.Full) (size : s.size = sim.size)
    (cells : ∀ p, s.cell? p = sim.cell? p)
    (area : sim.size.area = sim.config.width.toNat * sim.config.height.toNat)
    (nonempty : 0 < sim.size.area) : s.Shows sim := by
  obtain ⟨counted, below, largest, summed⟩ := tallied_population s
  have known {p : Vec} {cell : Cell} (found : sim.cell? p = some cell) :
      cell.atom.toNat < s.population.size :=
    below _ (List.mem_map_of_mem (full.mem_cells_iff.mpr ⟨p, (cells p).trans found⟩))
  have entry {column row : Nat} (hc : column < sim.size.columns) (hr : row < sim.size.rows) :
      ∃ cell, sim.cell? (.ofNat column row) = some cell ∧
        s.entries[row * sim.size.columns + column]? = some (.ofNat column row, cell) := by
    rw [← size] at hc hr ⊢
    have inside := Vec.inBounds_ofNat hc hr
    obtain ⟨cell, found⟩ := full.exists_cell inside
    refine ⟨cell, (cells _).symm.trans found, ?_⟩
    rw [← Vec.place_ofNat hc hr, getElem?_entries_place inside, found]
    rfl
  refine ⟨size, cells, ?_, entry, fun p inside => ?_, ?_, fun p cell => known, fun id inRange => ?_,
    ?_⟩
  · rw [← size, ← full]
    simp [entries]
  · rw [full.map_fst_entries, size]
    exact List.count_eq_one_of_mem (Vec.nodup_positions _) (Vec.mem_positions.mpr inside)
  · -- There is a cell, and so something is counted.
    have columns := Nat.pos_of_ne_zero (left_ne_zero_of_mul (Nat.ne_of_gt nonempty))
    have rows := Nat.pos_of_ne_zero (right_ne_zero_of_mul (Nat.ne_of_gt nonempty))
    obtain ⟨cell, found, -⟩ := entry columns rows
    have populated : 0 < s.population.size := Nat.zero_lt_of_lt (known found)
    obtain ⟨atom, member, last⟩ := largest.resolve_left (Nat.ne_of_gt populated)
    obtain ⟨other, listed, rfl⟩ := List.mem_map.mp member
    obtain ⟨p, found⟩ := full.mem_cells_iff.mp listed
    exact ⟨p, other, (cells p).symm.trans found, last⟩
  · have number := counted id.toNat
    rw [List.countP_map] at number
    rw [Array.getElem?_eq_getElem inRange, Option.getD_some] at number
    rw [Array.getElem?_eq_getElem inRange, number]
    have same : s.cells.toList.countP ((fun atom : AtomId => atom.toNat == id.toNat) ∘ (·.atom)) =
        s.cells.toList.countP (·.atom == id) :=
      List.countP_congr fun cell _ => by simp [UInt16.toNat_inj]
    rw [same, full.countP_cells, size]
    exact congrArg some (List.countP_congr fun p _ => by rw [cells p])
  · rw [summed, List.length_map, Array.length_toList, full, size, area]

/-- A snapshot of a simulation that can be reached shows it, whatever snapshot it replaces. -/
theorem Flat.shows {world : World} {S : Standard world} (flat : Flat S config sim s)
    (fits : config.Fits) (accepts : Accepts world config) : s.Shows sim := by
  have size : s.size = sim.size := flat.same.flatSize.trans flat.same.gridSize.symm
  have gridSize : sim.size = config.gridSize := flat.same.gridSize
  have area : sim.size.area = config.width.toNat * config.height.toNat :=
    gridSize ▸ fits.area_gridSize
  obtain ⟨width, height, -⟩ := accepts.sides
  refine flat.same.full.shows size (fun p => (flat.cell?_eq p).symm) ?_ ?_
  · rw [flat.ofConfig, area]
  · rw [area]
    exact Nat.mul_pos width height

/-! ## Going on -/

/-- A simulation and a snapshot that is kept beside it. -/
structure Watched where
  simulation : Simulation
  seen : Snapshot

/-- What may come later of a simulation and of the snapshot beside it. -/
inductive Watched.Later (first : Watched) : Watched → Prop
  | now : Later first first
  | operation {w : Watched} {ρ : Type} [WordSource ρ] (before : Later first w) (op : Operation)
      (source : ρ) : Later first { w with simulation := op.after w.simulation source }

/-- The snapshot stays as it is. -/
theorem Watched.Later.seen_eq {first later : Watched} (after : first.Later later) :
    later.seen = first.seen := by
  induction after with
  | now => rfl
  | operation _ _ _ ih => exact ih

/-- A snapshot that is taken of a simulation shows its cells, whatever the snapshot held that it
replaces, and goes on to do so whatever is done to the simulation. -/
theorem snapshotInto_shows (h : Script.compile source = .ok compiled) (fits : config.Fits)
    (reachable : Reachable compiled.world config sim) {buffer : Snapshot} (made : buffer.Made) :
    (sim.snapshotInto buffer).Shows sim ∧
      ∀ later : Watched, Watched.Later ⟨sim, sim.snapshotInto buffer⟩ later →
        later.seen.Shows sim := by
  obtain ⟨s, flat⟩ := reachable.exists_flat fits (lockStandard_suits h fits reachable)
  have shown : (sim.snapshotInto buffer).Shows sim := by
    have fits' : sim.size.area < 2 ^ 31 := by
      have size : sim.size = config.gridSize := flat.same.gridSize
      rw [size, fits.area_gridSize]
      exact fits.area
    rw [flat.snapshotInto_eq_of_size fun same => made.full (same ▸ fits')]
    exact flat.shows fits reachable.accepts
  refine ⟨shown, fun later after => ?_⟩
  rw [after.seen_eq]
  exact shown

/-- A snapshot of the size of the small grid, with a cell of no type of it. -/
def stale : Snapshot := Snapshot.write ⟨⟨3, 4⟩, Array.replicate 12 {}⟩ ⟨1, 1⟩ ⟨5, {}⟩

/-- The stale cell is gone, and a grain that is placed later is not seen. -/
theorem sunkSim_shows :
    stale.size = sunkSim.size ∧ (sunkSim.snapshotInto stale).Shows sunkSim ∧
      (Watched.mk ((Operation.place ⟨1, 1⟩ 1).after sunkSim (⟨7⟩ : Random.SplitMix))
        (sunkSim.snapshotInto stale)).seen.Shows sunkSim ∧
      ((Operation.place ⟨1, 1⟩ 1).after sunkSim (⟨7⟩ : Random.SplitMix)).cell? ⟨1, 1⟩ ≠
        sunkSim.cell? ⟨1, 1⟩ := by
  have made : stale.Made := .write (.blank ⟨3, 4⟩ 12 fun _ => rfl) ⟨1, 1⟩ ⟨5, {}⟩
  have seen := snapshotInto_shows Script.compile_sinking smallConfig_fits sunkSim_reachable made
  exact ⟨by decide +kernel, seen.1, seen.2 _ (.operation .now _ _), by decide +kernel⟩

end FallingSand
