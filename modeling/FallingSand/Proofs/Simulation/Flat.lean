import FallingSand.Proofs.Board.Locks
import FallingSand.Proofs.Board.Snapshot
import FallingSand.Proofs.Engine.Locality
import FallingSand.Simulation.Placement

/-!
# Locked regions and flat boards

The cells of a grid of tiles can also be kept in a plain snapshot. A region of the
grid and the snapshot are linked wherever the region has cells, so an action that
stays on the locked tiles does the same to both. What a simulation does is such
an action, with a lock that covers it: a block around the target of a tick, the
rectangle that is to be filled.
-/

namespace FallingSand

open FallingSand.Engine
open FallingSand.Random (WordSource)

variable {world : World} {size : Vec} {tileSize : Int32}

/-! ## Grids and snapshots -/

/-- A grid and a snapshot with the same cells, all of which are good. -/
structure SameCells (S : Standard world) (size : Vec) (tileSize : Int32) (g : Grid)
    (s : Snapshot) : Prop where
  wellFormed : g.WellFormed
  gridSize : g.size = size
  gridTiles : g.tileSize = tileSize
  full : s.Full
  flatSize : s.size = size
  cells : ∀ p, g.cell? p = s.cell? p
  good : ∀ p cell, s.cell? p = some cell → S.good cell

namespace SameCells

variable {S : Standard world} {g : Grid} {s : Snapshot}

theorem exists_cell (same : SameCells S size tileSize g s) {p : Vec}
    (inside : p.inBounds size = true) :
    ∃ cell, g.cell? p = some cell ∧ s.cell? p = some cell ∧ S.good cell := by
  rw [← same.gridSize] at inside
  obtain ⟨cell, found⟩ := same.wellFormed.exists_cell inside
  have flat := (same.cells p).symm.trans found
  exact ⟨cell, found, flat, same.good p cell flat⟩

theorem write (same : SameCells S size tileSize g s) {p : Vec} {cell : Cell}
    (inside : p.inBounds size = true) (good : S.good cell) :
    SameCells S size tileSize (g.writeSlot (g.slot p) cell) (s.write p cell) := by
  have insideGrid : p.inBounds g.size = true := same.gridSize ▸ inside
  have insideFlat : p.inBounds s.size = true := same.flatSize ▸ inside
  refine ⟨same.wellFormed.writeSlot _ _, same.gridSize, same.gridTiles,
    Snapshot.full_write same.full p cell, ?_, ?_, ?_⟩
  · rw [Snapshot.size_write]
    exact same.flatSize
  · intro q
    rw [same.wellFormed.cell?_writeSlot insideGrid, Snapshot.cell?_write same.full insideFlat,
      same.cells]
  · intro q other found
    rw [Snapshot.cell?_write same.full insideFlat] at found
    split at found
    · cases found
      exact good
    · exact same.good q other found

end SameCells

/-! ## Regions and snapshots -/

/-- Whether a region has a position, as far as the grid has it. -/
theorem contains_eq {g : Grid} (lock : Lock) {p : Vec} (inside : p.inBounds g.size = true) :
    (Region.mk g lock).contains p = lock.has (p.divide g.tileSize) := by
  rw [Region.contains, inside, Bool.true_and]
  rfl

/-- A region and a snapshot, which meet on the locked tiles. -/
def regionLink (S : Standard world) (size : Vec) (tileSize : Int32) (lock : Lock) :
    Link world Region Snapshot where
  toStandard := S
  boards r s := r.lock = lock ∧ SameCells S size tileSize r.grid s
  faults e r f s := (e = f ∧ S.allowed e) ∧ r.lock = lock ∧ SameCells S size tileSize r.grid s
  size := size
  meets p q := p = q ∧ (p.inBounds size = true → lock.has (p.divide tileSize) = true)
  size_left boards := boards.2.gridSize
  size_right boards := boards.2.flatSize
  inBounds_eq meets := by rw [meets.1]
  cells := by
    rintro r s p _ ⟨locked, same⟩ ⟨rfl, covered⟩ inside
    obtain ⟨cell, found, flat, good⟩ := same.exists_cell inside
    have contains : r.contains p = true := by
      have := contains_eq r.lock (same.gridSize.symm ▸ inside)
      rw [this, locked, same.gridTiles]
      exact covered inside
    exact ⟨cell, (Region.cell?_of_contains contains).trans found, flat, good⟩
  writes := by
    rintro r s p _ cell ⟨locked, same⟩ ⟨rfl, covered⟩ inside good
    have contains : r.contains p = true := by
      have := contains_eq r.lock (same.gridSize.symm ▸ inside)
      rw [this, locked, same.gridTiles]
      exact covered inside
    show (r.write p cell).lock = lock ∧ SameCells S size tileSize (r.write p cell).grid _
    rw [Region.write_of_contains contains]
    exact ⟨locked, same.write inside good⟩
  faults_of_allowed allowed boards := ⟨⟨rfl, allowed⟩, boards⟩

section Regions

variable {S : Standard world} {g : Grid} {s : Snapshot} {lock : Lock}

theorem meets_of_contains (same : SameCells S size tileSize g s) {p : Vec}
    (covered : p.inBounds size = true → (Region.mk g lock).contains p = true) :
    (regionLink S size tileSize lock).meets p p := by
  refine ⟨rfl, ?_⟩
  intro inside
  have contains := covered inside
  rw [contains_eq lock (same.gridSize.symm ▸ inside), same.gridTiles] at contains
  exact contains

theorem meetsNear_lockBlock (same : SameCells S size tileSize g s) (target : Vec) :
    (regionLink S size tileSize (g.lockBlock target)).MeetsNear target
      tileSize.toInt.toNat := by
  intro p near
  refine meets_of_contains same ?_
  intro inside
  obtain ⟨here, near⟩ := near inside
  have gridSize := same.gridSize
  refine same.wellFormed.contains_lockBlock ?_ ?_ ?_
  · rw [gridSize]
    exact here
  · rw [gridSize]
    exact inside
  · rw [same.gridTiles]
    exact near

/-- The positions of a rectangle with both corners in the grid are covered by its
lock. -/
theorem meets_lockRect (same : SameCells S size tileSize g s) {low high p : Vec}
    (hlow : low.inBounds size = true) (hhigh : high.inBounds size = true)
    (member : p ∈ Vec.rectangle low high) :
    p.inBounds size = true ∧ (regionLink S size tileSize (g.lockRect low high)).meets p p := by
  have between := Vec.mem_rectangle.mp member
  have inside : p.inBounds size = true := by
    rw [Vec.inBounds_iff] at hlow hhigh ⊢
    omega
  refine ⟨inside, meets_of_contains same ?_⟩
  intro _
  have gridSize := same.gridSize
  refine same.wellFormed.contains_lockRect ?_ ?_ ?_ between.1 between.2
  all_goals
    rw [gridSize]
    assumption

end Regions

/-! ## Simulations and snapshots -/

/-- The size of the grid that a configuration asks for. -/
def Config.gridSize (c : Config) : Vec := ⟨c.width.toInt32, c.height.toInt32⟩

/-- A simulation and a snapshot with the same cells. -/
structure Flat (S : Standard world) (config : Config) (sim : Simulation) (s : Snapshot) :
    Prop where
  ofWorld : sim.world = world
  ofConfig : sim.config = config
  same : SameCells S config.gridSize config.tileSize.toInt32 sim.grid s

/-- Runs of a simulation and on a snapshot, with equal errors. -/
def flatTie (S : Standard world) (config : Config) : Tie Simulation Snapshot where
  boards := Flat S config
  faults e sim f s := (e = f ∧ S.allowed e) ∧ Flat S config sim s

namespace Flat

variable {S : Standard world} {config : Config} {sim : Simulation} {s : Snapshot} {ρ α : Type}

theorem exec_locked (lock : Grid → Lock) (action : World → Action Region ρ α)
    (state : State Simulation ρ) :
    exec (Simulation.locked lock action) state =
      let after := exec (action state.board.world)
        ⟨⟨state.board.grid, lock state.board.grid⟩, state.source⟩
      (after.1, ⟨⟨state.board.world, state.board.config, after.2.board.grid⟩, after.2.source⟩) :=
  rfl

/-- What is done on a lock does the same to a simulation as its flat counterpart does to
a snapshot. -/
theorem coupled_locked {lock : Grid → Lock} {action : World → Action Region ρ α}
    {flat : Action Snapshot ρ α}
    (h : ∀ g s, SameCells S config.gridSize config.tileSize.toInt32 g s →
      Coupled (regionLink S config.gridSize config.tileSize.toInt32 (lock g)).toTie Eq
        (action world) flat) :
    Coupled (flatTie S config) Eq (Simulation.locked lock action) flat := by
  intro sim s source boards
  have ends := h sim.grid s boards.same ⟨sim.grid, lock sim.grid⟩ s source ⟨rfl, boards.same⟩
  rw [exec_locked]
  dsimp only
  rw [boards.ofWorld]
  -- The lock is gone afterwards; what it covered stays written.
  revert ends
  generalize exec (action world) ⟨⟨sim.grid, lock sim.grid⟩, source⟩ = left
  generalize exec flat ⟨s, source⟩ = right
  intro ends
  cases ends with
  | result related after => exact .result related ⟨rfl, boards.ofConfig, after.2⟩
  | fault faults => exact .fault ⟨faults.1, rfl, boards.ofConfig, faults.2.2⟩

variable [WordSource ρ]

/-- What a compiled world and an accepted configuration make sure of. -/
structure Suits (S : Standard world) (config : Config) : Prop where
  tile : 1 ≤ config.tileSize.toInt32.toInt.toNat
  rules : ∀ id, ∀ rule ∈ (world.atom id).allRules,
    rule.anchor.inBounds rule.size = true ∧
      rule.reach.toNat ≤ config.tileSize.toInt32.toInt.toNat ∧
      ∀ e ∈ rule.exprs, ∀ slot ∈ e.slots, Knows world S.good S.allowed slot.name

theorem coupled_tick (suits : Suits S config) (target : Vec) :
    Coupled (flatTie S config) Eq (Simulation.tick target : Action Simulation ρ Outcome)
      (Engine.tick world target) := by
  refine coupled_locked ?_
  intro g s same
  have meets := meetsNear_lockBlock same target
  by_cases inside : target.inBounds config.gridSize = true
  · exact meets.coupled_tick (Link.retypes _) suits.tile (meets.meets_target inside) suits.rules
  -- A target outside the grid meets itself without being covered.
  · have here : (regionLink S config.gridSize config.tileSize.toInt32
        (g.lockBlock target)).meets target target := ⟨rfl, fun h => absurd h inside⟩
    exact meets.coupled_tick (Link.retypes _) suits.tile here suits.rules

/-! ### Filling rectangles -/

/-- Makes the chosen cells of a rectangle new cells of a type on a board that has all
cells of a grid. -/
def retypeRectOn {β : Type} [Board β] (world : World) (size low high : Vec) (id : AtomId)
    (chosen : Cell → Bool) : Action β ρ Nat :=
  let low := low.max Vec.zero
  let high := high.min (size - Vec.one)
  if high.x < low.x || high.y < low.y then pure 0
  else (Vec.rectangle low high).foldlM (Simulation.retypeChosen chosen id world) 0

theorem coupled_retypeChosen {β γ : Type} [Board β] [Board γ] (L : Link world β γ)
    {chosen : Cell → Bool} {id : AtomId} {p : Vec} (meets : L.meets p p)
    (inside : p.inBounds L.size = true) (count : Nat) :
    Coupled L.toTie Eq (Simulation.retypeChosen chosen id world count p : Action β ρ Nat)
      (Simulation.retypeChosen chosen id world count p) := by
  unfold Simulation.retypeChosen
  refine (L.coupled_read meets inside).bind ?_
  rintro cell _ ⟨rfl, -⟩
  split
  · exact (L.retypes meets inside id).bind fun _ _ _ => Coupled.pure rfl
  · exact Coupled.pure rfl

/-- The corners of a rectangle that is cut off at the edges of a grid, unless nothing is
left of it, lie in the grid. -/
theorem corners_inBounds {low high size : Vec}
    (hx : 0 < size.x.toInt) (hy : 0 < size.y.toInt)
    (h : ¬((high.min (size - Vec.one)).x < (low.max Vec.zero).x ||
      (high.min (size - Vec.one)).y < (low.max Vec.zero).y) = true) :
    (low.max Vec.zero).inBounds size = true ∧
      (high.min (size - Vec.one)).inBounds size = true := by
  have lowX : (low.max Vec.zero).x.toInt = _ := toInt_max_zero low.x
  have lowY : (low.max Vec.zero).y.toInt = _ := toInt_max_zero low.y
  have highX : (high.min (size - Vec.one)).x.toInt = _ := toInt_min_pred hx.le
  have highY : (high.min (size - Vec.one)).y.toInt = _ := toInt_min_pred hy.le
  simp only [Bool.or_eq_true, decide_eq_true_eq, not_or, Int32.lt_iff_toInt_lt] at h
  rw [Vec.inBounds_iff, Vec.inBounds_iff]
  omega

/-- A rectangle of which nothing lies in the grid has no positions to fill. -/
theorem retypeRectOn_eq {β : Type} [Board β] (world : World) (size low high : Vec) (id : AtomId)
    (chosen : Cell → Bool) :
    (retypeRectOn world size low high id chosen : Action β ρ Nat) =
      (Vec.rectangle (low.max Vec.zero) (high.min (size - Vec.one))).foldlM
        (Simulation.retypeChosen chosen id world) 0 := by
  unfold retypeRectOn
  dsimp only
  split
  · rename_i nothing
    have empty : Vec.rectangle (low.max Vec.zero) (high.min (size - Vec.one)) = [] := by
      refine List.eq_nil_iff_forall_not_mem.mpr ?_
      intro p member
      have between := Vec.mem_rectangle.mp member
      simp only [Bool.or_eq_true, decide_eq_true_eq, Int32.lt_iff_toInt_lt] at nothing
      omega
    rw [empty]
    rfl
  · rfl

theorem coupled_retypeRect (low high : Vec) (id : AtomId) (chosen : World → Cell → Bool) :
    Coupled (flatTie S config) Eq (Simulation.retypeRect low high id chosen : Action _ ρ Nat)
      (retypeRectOn world config.gridSize low high id (chosen world)) := by
  intro sim s source boards
  have size : sim.size = config.gridSize := boards.same.gridSize
  unfold Simulation.retypeRect
  rw [exec_get_bind]
  dsimp only
  rw [size]
  unfold retypeRectOn
  dsimp only
  split
  · exact .result rfl boards
  rename_i nonempty
  have wf := boards.same.wellFormed
  have gridSize := boards.same.gridSize
  -- What is left of the rectangle has both corners in the grid, so its lock covers it.
  obtain ⟨hlow, hhigh⟩ := corners_inBounds (gridSize ▸ wf.width.1) (gridSize ▸ wf.height.1) nonempty
  refine coupled_locked ?_ sim s source boards
  intro g s same
  refine Coupled.foldlM (R := fun p q => p = q ∧ p ∈ Vec.rectangle (low.max Vec.zero)
    (high.min (config.gridSize - Vec.one)))
    (List.forall₂_same.mpr fun p member => ⟨rfl, member⟩) ?_ rfl
  rintro count _ p _ rfl ⟨rfl, member⟩
  obtain ⟨inside, meets⟩ := meets_lockRect same hlow hhigh member
  exact coupled_retypeChosen _ meets inside count

end Flat

end FallingSand
