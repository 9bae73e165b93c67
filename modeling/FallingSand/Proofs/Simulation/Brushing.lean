import FallingSand.Proofs.Simulation.Typed

/-!
# Brushes

A brush is a square box of cells around a position, or as much of that as the grid has. Placing
a type with it makes new cells of this type of exactly those cells in the box that were
empty, and counts them. So a second stroke with the same type finds nothing to fill, unless it
is the empty type that is placed.
-/

namespace FallingSand

open FallingSand.Engine
open FallingSand.Random (WordSource)

/-! ## The box of a brush -/

namespace AtomType

/-- The side of the brush for a type, as an integer. -/
def side (atom : AtomType) : Int :=
  match atom.constants.get? "size" with
  | some size => max size.toInt32.toInt 1
  | none => 5

/-- Whether a position lies in the box of the brush around another one. -/
def Brushes (atom : AtomType) (p q : Vec) : Prop :=
  (p.x.toInt - atom.side / 2 ≤ q.x.toInt ∧
    q.x.toInt ≤ p.x.toInt - atom.side / 2 + atom.side - 1) ∧
  p.y.toInt - atom.side / 2 ≤ q.y.toInt ∧
    q.y.toInt ≤ p.y.toInt - atom.side / 2 + atom.side - 1

instance (atom : AtomType) (p q : Vec) : Decidable (atom.Brushes p q) :=
  inferInstanceAs (Decidable ((_ ∧ _) ∧ _ ∧ _))

/-- Whether the corners of the box are words. -/
structure BrushFits (atom : AtomType) (p : Vec) : Prop where
  x : -2147483648 ≤ p.x.toInt - atom.side / 2 ∧
    p.x.toInt - atom.side / 2 + atom.side - 1 < 2147483648
  y : -2147483648 ≤ p.y.toInt - atom.side / 2 ∧
    p.y.toInt - atom.side / 2 + atom.side - 1 < 2147483648

variable {atom : AtomType} {p q : Vec}

theorem one_le_side (atom : AtomType) : 1 ≤ atom.side := by
  unfold side
  cases atom.constants.get? "size" with
  | some size => exact le_max_right _ _
  | none => decide

theorem toInt_brushSize (atom : AtomType) : atom.brushSize.toInt = atom.side := by
  unfold brushSize side
  cases atom.constants.get? "size" with
  | some size =>
    show (if size.toInt32 ≤ 1 then 1 else size.toInt32).toInt = max size.toInt32.toInt 1
    have one : (1 : Int32).toInt = 1 := rfl
    simp only [Int32.le_iff_toInt_le, one]
    split <;> omega
  | none => rfl

/-- On one axis, the corners of the box. -/
theorem toInt_corners {a : Int32} (atom : AtomType)
    (fits : -2147483648 ≤ a.toInt - atom.side / 2 ∧
      a.toInt - atom.side / 2 + atom.side - 1 < 2147483648) :
    (a - atom.brushSize / 2).toInt = a.toInt - atom.side / 2 ∧
      (a - atom.brushSize / 2 + (atom.brushSize - 1)).toInt =
        a.toInt - atom.side / 2 + atom.side - 1 := by
  have size := atom.toInt_brushSize
  have positive := atom.one_le_side
  have := a.toInt_lt
  have half : (atom.brushSize / 2).toInt = atom.side / 2 := by
    rw [toInt_div_of_nonneg (by omega) (by decide), size]
    rfl
  have low : (a - atom.brushSize / 2).toInt = a.toInt - atom.side / 2 := by
    rw [toInt_sub_of_fits] <;> rw [half] <;> omega
  have last := toInt_pred (a := atom.brushSize) (by omega)
  refine ⟨low, ?_⟩
  rw [toInt_add_of_fits] <;> rw [low, last, size] <;> omega

/-- The positions that are filled if their cells are empty. -/
def stroke (atom : AtomType) (size p : Vec) : List Vec :=
  Vec.rectangle ((atom.brush p).1.max Vec.zero) ((atom.brush p).2.min (size - Vec.one))

theorem nodup_stroke (atom : AtomType) (size p : Vec) : (atom.stroke size p).Nodup :=
  Vec.nodup_rectangle _ _

/-- They are the part of the box that the grid has. -/
theorem mem_stroke_iff (fits : atom.BrushFits p) {size : Vec} (hx : 0 ≤ size.x.toInt)
    (hy : 0 ≤ size.y.toInt) :
    q ∈ atom.stroke size p ↔ q.inBounds size = true ∧ atom.Brushes p q := by
  obtain ⟨lowX, highX⟩ : (atom.brush p).1.x.toInt = _ ∧ (atom.brush p).2.x.toInt = _ :=
    atom.toInt_corners fits.x
  obtain ⟨lowY, highY⟩ : (atom.brush p).1.y.toInt = _ ∧ (atom.brush p).2.y.toInt = _ :=
    atom.toInt_corners fits.y
  rw [stroke, Vec.mem_clipped hx hy, Vec.mem_rectangle, lowX, highX, lowY, highY]
  rfl

/-- Each of them comes once, though not in the order in which a grid has them. -/
theorem stroke_perm (fits : atom.BrushFits p) {size : Vec} (hx : 0 ≤ size.x.toInt)
    (hy : 0 ≤ size.y.toInt) :
    (atom.stroke size p).Perm (size.positions.filter fun q => decide (atom.Brushes p q)) := by
  refine (List.perm_ext_iff_of_nodup (atom.nodup_stroke size p)
    ((Vec.nodup_positions size).filter _)).mpr ?_
  intro q
  rw [mem_stroke_iff fits hx hy, List.mem_filter, Vec.mem_positions, decide_eq_true_iff]

end AtomType

/-! ## Cells that are filled -/

/-- A new cell of a type: it has the default properties of the type, except for those that the
type works out for new cells. -/
structure Remade (ρ : Type) [WordSource ρ] (world : World) (id : AtomId) (made : Cell) : Prop where
  atom : made.atom = id
  fresh : Fresh ρ world id made
  defaults : ∀ name, (∀ entry ∈ (world.atom id).init, entry.1 ≠ name) →
    made.properties.get? name = (world.atom id).properties.get? name

theorem World.Numbered.id_atom {world : World} (numbered : world.Numbered) {id : AtomId}
    (named : (world.atom? id).isSome) : (world.atom id).id = id := by
  obtain ⟨atom, found⟩ := Option.isSome_iff_exists.mp named
  rw [World.atom_eq_of_atom? found, numbered id.toNat atom found, UInt16.ofNat_toNat]

theorem Engine.Fresh.remade {ρ : Type} [WordSource ρ] {world : World} (numbered : world.Numbered)
    {id : AtomId} (named : (world.atom? id).isSome) {made : Cell} (fresh : Fresh ρ world id made) :
    Remade ρ world id made := by
  obtain ⟨source, grown⟩ := fresh
  exact ⟨grown.extends_start.atom.trans (numbered.id_atom named), ⟨source, grown⟩,
    fun _ other => grown.get?_eq other⟩

/-! ## Placing -/

variable {world : World} {S : Standard world} {config : Config} {sim : Simulation} {s : Snapshot}
  {ρ : Type} [WordSource ρ]

/-- Once the empty cells of some positions have been filled, there is no more to fill. -/
theorem Engine.Refilled.spared {id : AtomId} {positions : List Vec} {t : Snapshot}
    (refilled : Refilled ρ world (·.atom == world.empty) id positions s t) (full : s.Full)
    (inside : ∀ q ∈ positions, q.inBounds s.size = true) (numbered : world.Numbered)
    (named : (world.atom? id).isSome) (filled : id ≠ world.empty) :
    ∀ q ∈ positions, ∀ cell, t.cell? q = some cell → (cell.atom == world.empty) = false := by
  intro q member cell there
  obtain ⟨before, found⟩ := full.exists_cell (inside q member)
  cases empty : before.atom == world.empty with
  | true =>
    obtain ⟨made, here, fresh⟩ := refilled.made q member before found empty
    rw [there] at here
    cases here
    rw [(fresh.remade numbered named).atom]
    exact beq_eq_false_iff_ne.mpr filled
  | false =>
    rw [refilled.kept q before found fun _ => empty] at there
    cases there
    exact empty

/-- Where no cell of a rectangle is chosen, not even the grid is touched. -/
theorem Flat.exec_retypeRect_spared (flat : Flat S config sim s) (low high : Vec) (id : AtomId)
    (chosen : World → Cell → Bool)
    (spared : ∀ p ∈ Vec.rectangle (low.max Vec.zero) (high.min (config.gridSize - Vec.one)),
      ∀ cell, s.cell? p = some cell → chosen world cell = false) (source : ρ) :
    exec (Simulation.retypeRect low high id chosen) ⟨sim, source⟩ =
      (.ok 0, ⟨sim, source⟩) := by
  have size : sim.size = config.gridSize := flat.same.gridSize
  unfold Simulation.retypeRect
  rw [exec_get_bind]
  dsimp only
  rw [size]
  split
  · rfl
  rename_i nonempty
  have wf := flat.same.wellFormed
  rw [← flat.same.gridSize] at nonempty spared ⊢
  obtain ⟨hlow, hhigh⟩ := Flat.corners_inBounds wf.width.1 wf.height.1 nonempty
  -- The lock covers what is left of the rectangle, so each cell can be looked at.
  have covered : ∀ q ∈ Vec.rectangle (low.max Vec.zero) (high.min (sim.grid.size - Vec.one)),
      ∃ cell, Board.cell? (Region.mk sim.grid (sim.grid.lockRect (low.max Vec.zero)
        (high.min (sim.grid.size - Vec.one)))) q = some cell ∧ chosen world cell = false := by
    intro q member
    have between := Vec.mem_rectangle.mp member
    have inside := ((Vec.mem_clipped wf.width.1.le wf.height.1.le).mp member).1
    obtain ⟨cell, found⟩ := wf.exists_cell inside
    have covered := wf.contains_lockRect hlow hhigh inside between.1 between.2
    exact ⟨cell, (Region.cell?_of_contains covered).trans found,
      spared q member cell ((flat.same.cells q).symm.trans found)⟩
  rw [Flat.exec_locked]
  dsimp only
  rw [flat.ofWorld, exec_foldlM_spared covered, ← flat.ofWorld]

theorem Flat.inBounds_of_mem_stroke (flat : Flat S config sim s) {atom : AtomType} {p q : Vec}
    (member : q ∈ atom.stroke config.gridSize p) : q.inBounds s.size = true := by
  have size := flat.same.gridSize
  have wf := flat.same.wellFormed
  rw [flat.same.flatSize]
  exact ((Vec.mem_clipped (size ▸ wf.width.1.le) (size ▸ wf.height.1.le)).mp member).1

/-- What a stroke does to the cells of a simulation. -/
theorem Flat.refilled_of_place (flat : Flat S config sim s) {id : AtomId}
    (shaped : (world.atom id).Shaped) {p : Vec} {words : ρ} {count : Nat}
    {after : State Simulation ρ}
    (placed : (Simulation.place p id).run.run ⟨sim, words⟩ = (.ok count, after)) :
    ∃ t, Flat S config after.board t ∧
      Refilled ρ world (·.atom == world.empty) id
        ((world.atom id).stroke config.gridSize p) s t ∧
      count = ((world.atom id).stroke config.gridSize p).countP fun q =>
        (s.cell? q).any (·.atom == world.empty) := by
  obtain ⟨t, ran, flat', -⟩ := flat.exec_eq (Flat.coupled_place p id) words
  rw [show exec (Simulation.place p id) ⟨sim, words⟩ = (.ok count, after) from placed] at ran flat'
  rw [Flat.retypeRectOn_eq] at ran
  obtain ⟨refilled, counted⟩ :=
    refilled_of_foldlM shaped flat.same.full ((world.atom id).nodup_stroke _ p)
      (fun _ => flat.inBounds_of_mem_stroke) ran
  exact ⟨t, flat', refilled, counted.trans (Nat.zero_add _)⟩

/-- A stroke that finds no empty cell does nothing. -/
theorem Flat.exec_place_spared (flat : Flat S config sim s) {id : AtomId} {p : Vec}
    (spared : ∀ q ∈ (world.atom id).stroke config.gridSize p, ∀ cell,
      s.cell? q = some cell → (cell.atom == world.empty) = false) (words : ρ) :
    exec (Simulation.place p id) ⟨sim, words⟩ = (.ok 0, ⟨sim, words⟩) := by
  unfold Simulation.place
  rw [exec_get_bind]
  dsimp only
  rw [flat.ofWorld]
  exact flat.exec_retypeRect_spared _ _ id (fun world cell => cell.atom == world.empty) spared words

/-- Placing makes new cells of exactly the empty cells under the brush and counts them, whatever
has happened to the simulation before. Placing the same type again then does nothing at all. -/
theorem place_fills {source : List Char} {compiled : Script.Compiled}
    (h : Script.compile source = .ok compiled) (fits : config.Fits)
    (reachable : Reachable compiled.world config sim) {id : AtomId}
    (named : (compiled.world.atom? id).isSome = true) {p : Vec}
    (corners : (compiled.world.atom id).BrushFits p) {words : ρ} {count : Nat}
    {after : State Simulation ρ}
    (placed : (Simulation.place p id).run.run ⟨sim, words⟩ = (.ok count, after)) :
    after.board.size = sim.size ∧
      (∀ q, q.inBounds sim.size = true → ∃ cell, sim.cell? q = some cell ∧
        if cell.atom = compiled.world.empty ∧ (compiled.world.atom id).Brushes p q then
          ∃ made, after.board.cell? q = some made ∧ Remade ρ compiled.world id made
        else after.board.cell? q = some cell) ∧
      (count = sim.size.positions.countP fun q =>
        (sim.cell? q).any (·.atom == compiled.world.empty) &&
          decide ((compiled.world.atom id).Brushes p q)) ∧
      (id ≠ compiled.world.empty → ∀ {ρ' : Type} [WordSource ρ'] (words' : ρ'),
        (Simulation.place p id).run.run ⟨after.board, words'⟩ =
          (.ok 0, ⟨after.board, words'⟩)) := by
  obtain ⟨s, flat⟩ := reachable.exists_flat fits (lockStandard_suits h fits reachable)
  obtain ⟨hx, hy⟩ := reachable.accepts.gridSize_pos fits
  have numbered : compiled.world.Numbered := fun _ _ found => (Script.shaped_of_compile h found).id
  have size : sim.size = config.gridSize := flat.same.gridSize
  obtain ⟨t, flat', refilled, counted⟩ :=
    flat.refilled_of_place (Script.shaped_atom h id).1 placed
  have under (q : Vec) : q ∈ (compiled.world.atom id).stroke config.gridSize p ↔
      q.inBounds config.gridSize = true ∧ (compiled.world.atom id).Brushes p q :=
    AtomType.mem_stroke_iff corners hx.le hy.le
  refine ⟨flat'.same.gridSize.trans size.symm, ?_, ?_, ?_⟩
  · intro q inside
    rw [size] at inside
    obtain ⟨cell, -, found, -⟩ := flat.same.exists_cell inside
    refine ⟨cell, (flat.cell?_eq q).trans found, ?_⟩
    rw [flat'.cell?_eq]
    split
    · rename_i wanted
      obtain ⟨made, there, fresh⟩ := refilled.made q ((under q).mpr ⟨inside, wanted.2⟩) cell found
        (beq_iff_eq.mpr wanted.1)
      exact ⟨made, there, fresh.remade numbered named⟩
    · rename_i spared
      refine refilled.kept q cell found fun member => ?_
      exact beq_eq_false_iff_ne.mpr fun empty => spared ⟨empty, ((under q).mp member).2⟩
  · have cells : s.cell? = sim.cell? := funext fun q => (flat.cell?_eq q).symm
    rw [counted, (AtomType.stroke_perm corners hx.le hy.le).countP_eq, List.countP_filter, size,
      cells]
  · intro filled ρ' _ words'
    have spared := refilled.spared flat.same.full (fun _ => flat.inBounds_of_mem_stroke)
      numbered named filled
    exact flat'.exec_place_spared spared words'

/-- Embers that are placed at the corner of a dark grid fill nine of its twelve cells. -/
theorem dark_place_fills : ∃ after : State Simulation Random.SplitMix,
    (Simulation.place ⟨0, 0⟩ 1).run.run ⟨dark, ⟨7⟩⟩ = (.ok 9, after) ∧
    (∃ made, after.board.cell? ⟨2, 2⟩ = some made ∧
      Remade Random.SplitMix Script.glown.world 1 made) ∧
    (Simulation.place ⟨0, 0⟩ 1).run.run ⟨after.board, (⟨8⟩ : Random.SplitMix)⟩ =
      (.ok 0, ⟨after.board, ⟨8⟩⟩) := by
  have reachable : Reachable Script.glown.world smallConfig dark :=
    .start (Script.eq_ok_of_toOption (Option.some_get dark_starts).symm)
  have known : (Script.glown.world.atom? 1).isSome = true := by decide +kernel
  have corners : (Script.glown.world.atom 1).BrushFits ⟨0, 0⟩ :=
    ⟨by decide +kernel, by decide +kernel⟩
  have succeeds : ((Simulation.place ⟨0, 0⟩ 1).run.run
      (⟨dark, ⟨7⟩⟩ : State Simulation Random.SplitMix)).1.toOption = some 9 := by
    decide +kernel
  obtain ⟨after, placed⟩ : ∃ after, (Simulation.place ⟨0, 0⟩ 1).run.run
      (⟨dark, ⟨7⟩⟩ : State Simulation Random.SplitMix) = (.ok 9, after) :=
    ⟨_, Prod.ext (Script.eq_ok_of_toOption succeeds) rfl⟩
  obtain ⟨-, cells, -, again⟩ := place_fills Script.compile_glowing smallConfig_fits
    reachable known corners placed
  refine ⟨after, placed, ?_, again (by decide +kernel) (⟨8⟩ : Random.SplitMix)⟩
  obtain ⟨cell, found, filled⟩ := cells ⟨2, 2⟩ (by decide +kernel)
  have empty : (dark.cell? ⟨2, 2⟩).map (·.atom) = some Script.glown.world.empty := by
    decide +kernel
  rw [found] at empty
  have brushed : (Script.glown.world.atom 1).Brushes ⟨0, 0⟩ ⟨2, 2⟩ := by decide +kernel
  rw [if_pos ⟨Option.some.inj empty, brushed⟩] at filled
  exact filled

end FallingSand
