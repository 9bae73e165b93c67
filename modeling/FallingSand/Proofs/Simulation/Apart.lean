import FallingSand.Proofs.Simulation.Refinement

/-!
# Ticks that are apart

A tick reads and writes nothing but the tiles that it has locked. So from two grids that
agree on those tiles it goes the same way, and all other tiles stay as they are. Where
the blocks of two targets share no tile, neither tick can tell whether the other one has
already been there: `ticks_commute`.
-/

namespace FallingSand

open FallingSand.Engine
open FallingSand.Random (WordSource)

/-! ## Grids that differ in locked tiles -/

namespace Grid

variable {g h : Grid} {lock : Lock} {p : Vec}

/-- A grid that has come from another one by changes in locked tiles. -/
structure Within (lock : Lock) (g h : Grid) : Prop extends Alike g h where
  wellFormed : h.WellFormed
  others : ∀ n, n ∉ g.lockedTiles lock → h.tiles[n]? = g.tiles[n]?

/-- Grids with the same cells in the locked tiles. -/
structure Agree (lock : Lock) (g h : Grid) : Prop extends Alike g h where
  tiles : ∀ n ∈ g.lockedTiles lock, h.tiles[n]? = g.tiles[n]?

theorem Within.refl (wellFormed : g.WellFormed) : Within lock g g :=
  ⟨⟨rfl, rfl, rfl⟩, wellFormed, fun _ _ => rfl⟩

/-- The tile of a position that is covered is one of the locked ones. -/
theorem slot_mem_lockedTiles (covered : lock.has (g.tileAt p) = true) :
    (g.slot p).1 ∈ g.lockedTiles lock :=
  List.mem_map.mpr ⟨g.tileAt p, Lock.mem_tiles.mpr covered, rfl⟩

/-- A write to a covered position changes no other tile. -/
theorem Within.writeSlot (within : Within lock g h) (covered : lock.has (h.tileAt p) = true)
    (cell : Cell) : Within lock g (h.writeSlot (h.slot p) cell) := by
  refine ⟨⟨within.size, within.tileSize, within.across⟩, within.wellFormed.writeSlot _ _, ?_⟩
  intro n other
  have elsewhere : (h.slot p).1 ≠ n := by
    intro same
    have locked := slot_mem_lockedTiles covered
    rw [same, within.lockedTiles] at locked
    exact other locked
  show (h.tiles.modify (h.slot p).1 _)[n]? = g.tiles[n]?
  rw [Array.getElem?_modify, if_neg elsewhere]
  exact within.others n other

/-- Equal writes keep the locked tiles equal. -/
theorem Agree.writeSlot (agree : Agree lock g h) (p : Vec) (cell : Cell) :
    Agree lock (g.writeSlot (g.slot p) cell) (h.writeSlot (h.slot p) cell) := by
  refine ⟨⟨agree.size, agree.tileSize, agree.across⟩, ?_⟩
  intro n locked
  show (h.tiles.modify (h.slot p).1 _)[n]? = (g.tiles.modify (g.slot p).1 _)[n]?
  rw [Array.getElem?_modify, Array.getElem?_modify, agree.slot, agree.tiles n locked]

/-- Where a position is covered both grids have the same cell. -/
theorem Agree.cell?_eq (agree : Agree lock g h) (covered : lock.has (g.tileAt p) = true) :
    h.cell? p = g.cell? p := by
  unfold cell? slotCell?
  rw [agree.slot, agree.size, agree.tiles _ (slot_mem_lockedTiles covered)]

/-- What one lock leaves alone agrees on any lock that shares no tile with it. -/
theorem Within.agree {other : Lock} (within : Within lock g h)
    (apart : (g.lockedTiles lock).Disjoint (g.lockedTiles other)) : Agree other g h :=
  ⟨within.toAlike, fun n locked => within.others n fun shared => apart shared locked⟩

theorem ext_tiles (alike : Alike g h) (tiles : ∀ n : Nat, g.tiles[n]? = h.tiles[n]?) : g = h := by
  obtain ⟨size, tileSize, across⟩ := alike
  have same : g.tiles = h.tiles := Array.ext_getElem? tiles
  cases g
  cases h
  simp_all

/-- Two changes under locks that share no tile, made in either order: the tiles of each lock
are what its change makes of them, and the others are what they were. -/
theorem eq_of_within {other : Lock} {one two oneTwo twoOne : Grid}
    (apart : (g.lockedTiles lock).Disjoint (g.lockedTiles other))
    (first : Within lock g one) (second : Within other g two)
    (firstThen : Within other one oneTwo) (secondThen : Within lock two twoOne)
    (agree : Agree lock one twoOne) (agree' : Agree other two oneTwo) : oneTwo = twoOne := by
  refine ext_tiles ⟨?_, ?_, ?_⟩ ?_
  · rw [agree.size, firstThen.size]
  · rw [agree.tileSize, firstThen.tileSize]
  · rw [agree.across, firstThen.across]
  intro n
  have left : n ∉ g.lockedTiles other → oneTwo.tiles[n]? = one.tiles[n]? := by
    rw [← first.lockedTiles]
    exact firstThen.others n
  have right : n ∉ g.lockedTiles lock → twoOne.tiles[n]? = two.tiles[n]? := by
    rw [← second.lockedTiles]
    exact secondThen.others n
  by_cases here : n ∈ g.lockedTiles lock
  · rw [left fun there => apart here there]
    rw [← first.lockedTiles] at here
    exact (agree.tiles n here).symm
  by_cases there : n ∈ g.lockedTiles other
  · rw [right here]
    rw [← second.lockedTiles] at there
    exact agree'.tiles n there
  · rw [left there, right here, first.others n here, second.others n there]

end Grid

/-! ## Two runs under the same lock -/

variable {world : World} {size : Vec} {tileSize : Int32} {lock : Lock}

/-- Two regions under one lock that have come from grids of one form, with the same cells in
the locked tiles. -/
structure Twins (size : Vec) (tileSize : Int32) (lock : Lock) (g h : Grid) (r s : Region) :
    Prop where
  locked : r.lock = lock ∧ s.lock = lock
  gridSize : r.grid.size = size
  gridTiles : r.grid.tileSize = tileSize
  left : Grid.Within lock g r.grid
  right : Grid.Within lock h s.grid
  agree : Grid.Agree lock r.grid s.grid

namespace Twins

variable {g h : Grid} {r s : Region} {p : Vec}

theorem contains (twins : Twins size tileSize lock g h r s) (inside : p.inBounds size = true)
    (covered : lock.has (p.divide tileSize) = true) :
    r.contains p = true ∧ s.contains p = true := by
  have sizes := twins.agree.size.trans twins.gridSize
  have tiles := twins.agree.tileSize.trans twins.gridTiles
  unfold Region.contains Grid.tileAt
  rw [twins.gridSize, sizes, twins.gridTiles, tiles, twins.locked.1, twins.locked.2, inside,
    covered]
  exact ⟨rfl, rfl⟩

theorem covers (twins : Twins size tileSize lock g h r s)
    (covered : lock.has (p.divide tileSize) = true) :
    lock.has (r.grid.tileAt p) = true ∧ lock.has (s.grid.tileAt p) = true := by
  have tiles := twins.agree.tileSize.trans twins.gridTiles
  unfold Grid.tileAt
  rw [twins.gridTiles, tiles]
  exact ⟨covered, covered⟩

theorem write (twins : Twins size tileSize lock g h r s) (inside : p.inBounds size = true)
    (covered : lock.has (p.divide tileSize) = true) (cell : Cell) :
    Twins size tileSize lock g h (r.write p cell) (s.write p cell) := by
  obtain ⟨left, right⟩ := twins.contains inside covered
  obtain ⟨coversLeft, coversRight⟩ := twins.covers covered
  rw [Region.write_of_contains left, Region.write_of_contains right]
  exact ⟨twins.locked, twins.gridSize, twins.gridTiles, twins.left.writeSlot coversLeft cell,
    twins.right.writeSlot coversRight cell, twins.agree.writeSlot p cell⟩

end Twins

theorem Lock.inBounds_eq_of_meets {lock : Lock} {size : Vec} {tileSize : Int32} {p q : Vec}
    (meets : p = q ∧ (p.inBounds size = true → lock.has (p.divide tileSize) = true)) :
    p.inBounds size = q.inBounds size := by
  rw [meets.1]

/-- Two regions under one lock, which meet on the locked tiles. -/
def twinLink (S : Standard world) (any : ∀ cell, S.good cell) (size : Vec) (tileSize : Int32)
    (lock : Lock) (g h : Grid) : Link world Region Region where
  toStandard := S
  boards := Twins size tileSize lock g h
  faults e r f s := e = f ∧ Twins size tileSize lock g h r s
  size := size
  meets p q := p = q ∧ (p.inBounds size = true → lock.has (p.divide tileSize) = true)
  size_left twins := twins.gridSize
  size_right twins := twins.agree.size.trans twins.gridSize
  inBounds_eq meets := Lock.inBounds_eq_of_meets meets
  cells := by
    rintro r s p _ twins ⟨rfl, covered⟩ inside
    have here := covered inside
    obtain ⟨left, right⟩ := twins.contains inside here
    obtain ⟨cell, found⟩ := twins.left.wellFormed.exists_cell (twins.gridSize.symm ▸ inside)
    have same := twins.agree.cell?_eq (twins.covers here).1
    exact ⟨cell, (Region.cell?_of_contains left).trans found,
      (Region.cell?_of_contains right).trans (same.trans found), any cell⟩
  writes := by
    rintro r s p _ cell twins ⟨rfl, covered⟩ inside _
    exact twins.write inside (covered inside) cell
  faults_of_allowed _ twins := ⟨rfl, twins⟩

section Tick

variable {config : Config} {S : Standard world} {ρ : Type} [WordSource ρ] {sim other : Simulation}

/-- Simulations of a world, on grids that agree on a lock. -/
structure Simulation.Agree (world : World) (lock : Lock) (sim other : Simulation) : Prop where
  worlds : sim.world = world ∧ other.world = world
  configs : other.config = sim.config
  wellFormed : sim.grid.WellFormed ∧ other.grid.WellFormed
  grids : Grid.Agree lock sim.grid other.grid

/-- On grids that agree on the block of its target a tick goes the same way, and it leaves the
other tiles alone. -/
theorem tick_of_agree (any : ∀ cell, S.good cell) (suits : Flat.Suits S config) {target : Vec}
    (tiles : sim.grid.tileSize = config.tileSize.toInt32)
    (agree : sim.Agree world (sim.grid.lockBlock target) other) (words : ρ) :
    let left := exec (Simulation.tick target) ⟨sim, words⟩
    let right := exec (Simulation.tick target) ⟨other, words⟩
    left.1 = right.1 ∧ left.2.source = right.2.source ∧
      left.2.board.Agree world (sim.grid.lockBlock target) right.2.board ∧
      left.2.board.config = sim.config ∧
      Grid.Within (sim.grid.lockBlock target) sim.grid left.2.board.grid ∧
      Grid.Within (sim.grid.lockBlock target) other.grid right.2.board.grid := by
  intro left right
  have wellFormed := agree.wellFormed.1
  let L := twinLink S any sim.grid.size config.tileSize.toInt32 (sim.grid.lockBlock target)
    sim.grid other.grid
  -- the block covers all that a rule can reach from the target
  have meets : L.MeetsNear target config.tileSize.toInt32.toInt.toNat := by
    intro p near
    refine ⟨rfl, ?_⟩
    intro inside
    obtain ⟨here, near⟩ := near inside
    rw [← tiles] at near
    have contains := wellFormed.contains_lockBlock here inside near
    rw [contains_eq _ inside, tiles] at contains
    exact contains
  have here : L.meets target target := ⟨rfl, fun inside => (meets.meets_target inside).2 inside⟩
  have coupled : Coupled L.toTie Eq (Engine.tick world target : Action Region ρ Outcome)
      (Engine.tick world target : Action Region ρ Outcome) :=
    meets.coupled_tick (Link.retypes _) suits.tile here suits.rules
  have twins : L.boards ⟨sim.grid, sim.grid.lockBlock target⟩
      ⟨other.grid, other.grid.lockBlock target⟩ :=
    ⟨⟨rfl, agree.grids.lockBlock target⟩, rfl, tiles, .refl wellFormed,
      .refl agree.wellFormed.2, agree.grids⟩
  have ends := coupled _ _ words twins
  have runLeft : left = _ := Flat.exec_locked _ _ _
  have runRight : right = _ := Flat.exec_locked _ _ _
  rw [runLeft, runRight]
  dsimp only
  rw [agree.worlds.1, agree.worlds.2]
  revert ends
  generalize exec (Engine.tick world target) (⟨⟨sim.grid, _⟩, words⟩ : State Region ρ) = left
  generalize exec (Engine.tick world target) (⟨⟨other.grid, _⟩, words⟩ : State Region ρ) = right
  intro ends
  cases ends with
  | result same after =>
    exact ⟨congrArg Except.ok same, rfl, ⟨⟨rfl, rfl⟩, agree.configs,
      ⟨after.left.wellFormed, after.right.wellFormed⟩, after.agree⟩, rfl, after.left, after.right⟩
  | fault faults =>
    obtain ⟨same, after⟩ := faults
    exact ⟨congrArg Except.error same, rfl, ⟨⟨rfl, rfl⟩, agree.configs,
      ⟨after.left.wellFormed, after.right.wellFormed⟩, after.agree⟩, rfl, after.left, after.right⟩

end Tick

/-! ## Ticks on blocks without a common tile -/

/-- Ticks on blocks of tiles that share no tile may change places: both end as they would
have ended alone, they draw the same, and they leave the same grid behind. -/
theorem ticks_commute {source : List Char} {compiled : Script.Compiled} {config : Config}
    (h : Script.compile source = .ok compiled) (fits : config.Fits) {sim : Simulation}
    (reachable : Reachable compiled.world config sim) {first second : Vec}
    (apart : (sim.grid.lockedTiles (sim.grid.lockBlock first)).Disjoint
      (sim.grid.lockedTiles (sim.grid.lockBlock second)))
    {ρ σ : Type} [WordSource ρ] [WordSource σ] (words : ρ) (others : σ) :
    let a := (Simulation.tick first).run.run (⟨sim, words⟩ : State Simulation ρ)
    let ab := (Simulation.tick second).run.run (⟨a.2.board, others⟩ : State Simulation σ)
    let b := (Simulation.tick second).run.run (⟨sim, others⟩ : State Simulation σ)
    let ba := (Simulation.tick first).run.run (⟨b.2.board, words⟩ : State Simulation ρ)
    a.1 = ba.1 ∧ ab.1 = b.1 ∧ a.2.source = ba.2.source ∧ ab.2.source = b.2.source ∧
      ab.2.board = ba.2.board := by
  intro a ab b ba
  have suits := lockStandard_suits h fits reachable
  obtain ⟨s, flat⟩ := reachable.exists_flat fits suits
  have wellFormed := flat.same.wellFormed
  have tiles := flat.same.gridTiles
  have alone (lock : Lock) : sim.Agree compiled.world lock sim :=
    ⟨⟨flat.ofWorld, flat.ofWorld⟩, rfl, ⟨wellFormed, wellFormed⟩, ⟨⟨rfl, rfl, rfl⟩, fun _ _ => rfl⟩⟩
  have apart' : (sim.grid.lockedTiles (sim.grid.lockBlock second)).Disjoint
      (sim.grid.lockedTiles (sim.grid.lockBlock first)) := fun _ there here => apart here there
  -- Each tick leaves the block of the other one as it was.
  obtain ⟨-, -, after, config₁, withinA, -⟩ :=
    tick_of_agree (fun _ => trivial) suits tiles (alone (sim.grid.lockBlock first)) words
  obtain ⟨-, -, after', config₂, withinB, -⟩ :=
    tick_of_agree (fun _ => trivial) suits tiles (alone (sim.grid.lockBlock second)) others
  have keptFirst : sim.Agree compiled.world (sim.grid.lockBlock first) b.2.board :=
    ⟨⟨flat.ofWorld, after'.worlds.1⟩, config₂, ⟨wellFormed, withinB.wellFormed⟩,
      withinB.agree apart'⟩
  have keptSecond : sim.Agree compiled.world (sim.grid.lockBlock second) a.2.board :=
    ⟨⟨flat.ofWorld, after.worlds.1⟩, config₁, ⟨wellFormed, withinA.wellFormed⟩,
      withinA.agree apart⟩
  obtain ⟨resultA, sourceA, agreeA, -, -, withinBA⟩ :=
    tick_of_agree (fun _ => trivial) suits tiles keptFirst words
  obtain ⟨resultB, sourceB, agreeB, -, -, withinAB⟩ :=
    tick_of_agree (fun _ => trivial) suits tiles keptSecond others
  refine ⟨resultA, resultB.symm, sourceA, sourceB.symm, ?_⟩
  have grids : ab.2.board.grid = ba.2.board.grid :=
    Grid.eq_of_within apart withinA withinB withinAB withinBA agreeA.grids agreeB.grids
  have worlds : ab.2.board.world = ba.2.board.world :=
    agreeB.worlds.2.trans agreeA.worlds.2.symm
  have configs : ab.2.board.config = ba.2.board.config :=
    (agreeB.configs.trans config₂).trans (agreeA.configs.trans config₁).symm
  generalize ab.2.board = left at *
  generalize ba.2.board = right at *
  cases left
  cases right
  simp only at worlds configs grids
  rw [worlds, configs, grids]

/-! ## Sand at both ends of a grid -/

/-- The block of the left heap has the tiles of the first two columns, and that of the right
heap those of the last two. -/
theorem twoHeaps_apart :
    (twoHeaps.grid.lockedTiles (twoHeaps.grid.lockBlock ⟨0, 1⟩)).Disjoint
      (twoHeaps.grid.lockedTiles (twoHeaps.grid.lockBlock ⟨11, 1⟩)) := by
  have left : twoHeaps.grid.lockedTiles (twoHeaps.grid.lockBlock ⟨0, 1⟩) = [0, 1, 6, 7] := by
    decide +kernel
  have right : twoHeaps.grid.lockedTiles (twoHeaps.grid.lockBlock ⟨11, 1⟩) = [4, 5, 10, 11] := by
    decide +kernel
  rw [left, right]
  intro n one two
  simp only [List.mem_cons, List.not_mem_nil, or_false] at one two
  omega

theorem twoHeaps_ticks_commute :
    ((Simulation.tick ⟨11, 1⟩).run.run
      ⟨((Simulation.tick ⟨0, 1⟩).run.run ⟨twoHeaps, (⟨7⟩ : Random.SplitMix)⟩).2.board,
        (⟨8⟩ : Random.SplitMix)⟩).2.board =
    ((Simulation.tick ⟨0, 1⟩).run.run
      ⟨((Simulation.tick ⟨11, 1⟩).run.run ⟨twoHeaps, (⟨8⟩ : Random.SplitMix)⟩).2.board,
        (⟨7⟩ : Random.SplitMix)⟩).2.board :=
  (ticks_commute Script.compile_sinking wideConfig_fits twoHeaps_reachable twoHeaps_apart
    (⟨7⟩ : Random.SplitMix) (⟨8⟩ : Random.SplitMix)).2.2.2.2

end FallingSand
