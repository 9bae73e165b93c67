import FallingSand.Proofs.Simulation.Typed

/-!
# Clearing forgets

Clearing makes every cell of a grid a new cell of the empty type. A new cell is worked out
from itself and from random words, so nothing of what was on the grid can get into it: from
any two reachable simulations clearing goes the same way, and what it leaves behind cannot
be told apart.
-/

namespace FallingSand

open FallingSand.Engine
open FallingSand.Random (WordSource)

variable {world : World} {config : Config} {sim other : Simulation} {size : Vec}
  {s t : Snapshot}

/-! ## Snapshots that agree at some positions -/

/-- Snapshots of a size with the same cells at some positions. -/
structure SameAt (size : Vec) (positions : List Vec) (s t : Snapshot) : Prop where
  full : s.Full ∧ t.Full
  size : s.size = size ∧ t.size = size
  cells : ∀ p ∈ positions, s.cell? p = t.cell? p

namespace SameAt

variable {positions : List Vec} {p : Vec}

theorem write (same : SameAt size positions s t) (inside : p.inBounds size = true) (cell : Cell) :
    SameAt size (p :: positions) (s.write p cell) (t.write p cell) := by
  obtain ⟨⟨fullS, fullT⟩, ⟨rfl, sizeT⟩, cells⟩ := same
  refine ⟨⟨Snapshot.full_write fullS p cell, Snapshot.full_write fullT p cell⟩,
    ⟨Snapshot.size_write s p cell, (Snapshot.size_write t p cell).trans sizeT⟩, ?_⟩
  intro q member
  rw [Snapshot.cell?_write fullS inside, Snapshot.cell?_write fullT (sizeT ▸ inside)]
  split
  · rfl
  · rename_i elsewhere
    rcases List.mem_cons.mp member with here | before
    · exact absurd here elsewhere
    · exact cells q before

/-- Snapshots with the same cells everywhere are the same. -/
theorem eq (same : SameAt size positions s t)
    (all : ∀ p, p.inBounds size = true → p ∈ positions) : s = t := by
  obtain ⟨⟨fullS, fullT⟩, ⟨rfl, sizeT⟩, cells⟩ := same
  refine fullS.ext fullT sizeT.symm ?_
  intro p
  by_cases inside : p.inBounds s.size = true
  · exact cells p (all p inside)
  · have outside := Bool.eq_false_iff.mpr inside
    rw [Snapshot.cell?_eq_none outside, Snapshot.cell?_eq_none (sizeT ▸ outside)]

end SameAt

/-- Runs that fail with the same error, or leave the same cells at some positions. -/
def sameTie (size : Vec) (positions : List Vec) : Tie Snapshot Snapshot where
  boards := SameAt size positions
  faults e _ f _ := e = f

/-! ## New cells, one position after the other -/

section Retyping

variable {ρ : Type} [WordSource ρ] {id : AtomId} {p : Vec}

/-- Making a cell a new one, whatever it was. -/
theorem exec_retypeChosen_all (own : ∀ entry ∈ (world.atom id).init, entry.2.ReadsSelf)
    (full : s.Full) (inside : p.inBounds s.size = true) (count : Nat) (source : ρ) :
    exec (Simulation.retypeChosen (fun _ => true) id world count p) ⟨s, source⟩ =
      let made := workOut world (world.atom id).init (world.atom id).newCell source
      (made.1.map fun _ => count + 1, ⟨s.write p made.2.1, made.2.2⟩) := by
  obtain ⟨cell, found⟩ := full.exists_cell inside
  have there : Board.cell? s p = some cell := found
  unfold Simulation.retypeChosen
  rw [exec_bind, exec_read, there]
  dsimp only
  rw [if_pos rfl, exec_bind, retype_eq, exec_makeCell_workOut own _ full inside]
  dsimp only
  cases (workOut world (world.atom id).init (world.atom id).newCell source).1 <;> rfl

/-- A new cell that takes the place of another one does not depend on that. -/
theorem retypeChosen_forgets (own : ∀ entry ∈ (world.atom id).init, entry.2.ReadsSelf)
    {done : List Vec} (same : SameAt size done s t) (inside : p.inBounds size = true)
    (count : Nat) (source : ρ) : (sameTie size (p :: done)).Ends Eq
      (exec (Simulation.retypeChosen (fun _ => true) id world count p) ⟨s, source⟩)
      (exec (Simulation.retypeChosen (fun _ => true) id world count p) ⟨t, source⟩) := by
  rw [exec_retypeChosen_all own same.full.1 (by rw [same.size.1]; exact inside),
    exec_retypeChosen_all own same.full.2 (by rw [same.size.2]; exact inside)]
  dsimp only
  cases (workOut world (world.atom id).init (world.atom id).newCell source).1 with
  | error e => exact .fault rfl
  | ok _ => exact .result rfl (same.write inside _)

/-- By induction on the positions that are left; the snapshots agree on those that are done. -/
theorem retypeAll_forgets (own : ∀ entry ∈ (world.atom id).init, entry.2.ReadsSelf)
    {positions done : List Vec} (same : SameAt size done s t)
    (inside : ∀ p ∈ positions, p.inBounds size = true) (count : Nat) (source : ρ) :
    (sameTie size (positions.reverse ++ done)).Ends Eq
      (exec (positions.foldlM (Simulation.retypeChosen (fun _ => true) id world) count)
        ⟨s, source⟩)
      (exec (positions.foldlM (Simulation.retypeChosen (fun _ => true) id world) count)
        ⟨t, source⟩) := by
  induction positions generalizing s t done count source with
  | nil => exact .result rfl same
  | cons p rest ih =>
    have first := retypeChosen_forgets own same (inside p List.mem_cons_self) count source
    rw [List.foldlM_cons, exec_bind, exec_bind, List.reverse_cons, List.append_assoc]
    generalize exec (Simulation.retypeChosen (fun _ => true) id world count p) ⟨s, source⟩ = left
      at first
    generalize exec (Simulation.retypeChosen (fun _ => true) id world count p) ⟨t, source⟩ = right
      at first
    cases first with
    | fault e => exact .fault e
    | result equal next =>
      cases equal
      exact ih next (fun q member => inside q (List.mem_cons_of_mem _ member)) _ _

/-- Where nothing is to be worked out a grid of new cells stays as it is. -/
theorem retypeAll_filled (nothing : (world.atom id).init = []) {positions : List Vec}
    (inside : ∀ p ∈ positions, p.inBounds size = true) (count : Nat) (source : ρ) :
    exec (positions.foldlM (Simulation.retypeChosen (fun _ => true) id world) count)
        ⟨Snapshot.filled size (world.atom id).newCell, source⟩ =
      (.ok (count + positions.length), ⟨Snapshot.filled size (world.atom id).newCell, source⟩) := by
  have own : ∀ entry ∈ (world.atom id).init, entry.2.ReadsSelf := by
    rw [nothing]
    exact fun entry member => (nomatch member)
  induction positions generalizing count with
  | nil => rfl
  | cons p rest ih =>
    have here := inside p List.mem_cons_self
    have full := Snapshot.full_filled size (world.atom id).newCell
    have step := exec_retypeChosen_all own full here count source
    rw [nothing] at step
    have unchanged : (Snapshot.filled size (world.atom id).newCell).write p
        (world.atom id).newCell = .filled size (world.atom id).newCell :=
      Snapshot.write_filled here
    rw [List.foldlM_cons, exec_bind, step]
    dsimp only [workOut, Except.map]
    rw [unchanged, ih (fun q member => inside q (List.mem_cons_of_mem _ member)),
      List.length_cons, Nat.add_assoc, Nat.add_comm 1]

/-! ## Clearing snapshots -/

theorem inBounds_of_mem_all (hx : 0 < size.x.toInt) (hy : 0 < size.y.toInt) :
    ∀ p ∈ Vec.rectangle (Vec.zero.max Vec.zero) ((size - Vec.one).min (size - Vec.one)),
      p.inBounds size = true :=
  fun _ member => ((Vec.mem_clipped hx.le hy.le).mp member).1

/-- Clearing goes the same way, whatever there was before, and where it succeeds it leaves the
same snapshot. -/
theorem clear_forgets (own : ∀ entry ∈ (world.atom world.empty).init, entry.2.ReadsSelf)
    (hx : 0 < size.x.toInt) (hy : 0 < size.y.toInt) (full : s.Full ∧ t.Full)
    (sizes : s.size = size ∧ t.size = size) (source : ρ) :
    let left := exec (Operation.clear.flat world size) ⟨s, source⟩
    let right := exec (Operation.clear.flat world size) ⟨t, source⟩
    left.1 = right.1 ∧ left.2.source = right.2.source ∧
      (left.1 = .ok () → left.2.board = right.2.board) := by
  have same : SameAt size [] s t := ⟨full, sizes, fun p member => (nomatch member)⟩
  have all := retypeAll_forgets own same (inBounds_of_mem_all hx hy) 0 source
  have covers : ∀ p, p.inBounds size = true →
      p ∈ (Vec.rectangle (Vec.zero.max Vec.zero)
        ((size - Vec.one).min (size - Vec.one))).reverse ++ [] := by
    intro p inside
    rw [List.append_nil, List.mem_reverse]
    exact (Vec.mem_clipped hx.le hy.le).mpr ⟨inside, Vec.mem_rectangle_whole inside⟩
  rw [← Flat.retypeRectOn_eq] at all
  unfold Operation.flat
  rw [exec_bind, exec_bind]
  generalize exec (Flat.retypeRectOn world size Vec.zero (size - Vec.one) world.empty
    fun _ => true) ⟨s, source⟩ = left at all
  generalize exec (Flat.retypeRectOn world size Vec.zero (size - Vec.one) world.empty
    fun _ => true) ⟨t, source⟩ = right at all
  cases all with
  | fault faults =>
    cases faults
    exact ⟨rfl, rfl, fun impossible => (nomatch impossible)⟩
  | result equal agree => exact ⟨rfl, rfl, fun _ => agree.eq covers⟩

/-- Clearing leaves new cells for which nothing is to be worked out. -/
theorem clear_of_no_init (nothing : (world.atom world.empty).init = [])
    (hx : 0 < size.x.toInt) (hy : 0 < size.y.toInt) (full : s.Full) (hs : s.size = size)
    (source : ρ) : exec (Operation.clear.flat world size) ⟨s, source⟩ =
      (.ok (), ⟨.filled size (world.atom world.empty).newCell, source⟩) := by
  have own : ∀ entry ∈ (world.atom world.empty).init, entry.2.ReadsSelf := by
    rw [nothing]
    exact fun entry member => (nomatch member)
  -- A board that has these cells already is not changed.
  have settled : exec (Operation.clear.flat world size)
      ⟨Snapshot.filled size (world.atom world.empty).newCell, source⟩ =
        (.ok (), ⟨.filled size (world.atom world.empty).newCell, source⟩) := by
    unfold Operation.flat
    rw [exec_bind, Flat.retypeRectOn_eq, retypeAll_filled nothing (inBounds_of_mem_all hx hy)]
    rfl
  obtain ⟨result, draws, boards⟩ :=
    clear_forgets own hx hy ⟨full, Snapshot.full_filled size (world.atom world.empty).newCell⟩
      ⟨hs, rfl⟩ source
  rw [settled] at result draws boards
  generalize exec (Operation.clear.flat world size) ⟨s, source⟩ = left at *
  obtain ⟨_, _, _⟩ := left
  cases result
  cases draws
  cases boards rfl
  rfl

end Retyping

/-! ## Clearing simulations -/

/-- Simulations with the cells of one snapshot cannot be told apart. -/
theorem Flat.alike {S : Standard world} (flat : Flat S config sim s)
    (flat' : Flat S config other s) :
    sim.size = other.size ∧ sim.snapshot = other.snapshot ∧ ∀ p, sim.cell? p = other.cell? p :=
  ⟨flat.same.gridSize.trans flat'.same.gridSize.symm,
    flat.snapshot_eq.trans flat'.snapshot_eq.symm,
    fun p => (flat.cell?_eq p).trans (flat'.cell?_eq p).symm⟩

/-- A simulation is started with new cells for which nothing is to be worked out. -/
theorem flat_of_start {S : Standard world} (fits : config.Fits)
    (nothing : (world.atom world.empty).init = []) {σ : Type} [WordSource σ] {first : σ}
    (started : Simulation.start world config first = .ok sim) :
    Flat S config sim (.filled config.gridSize (world.atom world.empty).newCell) := by
  obtain ⟨accepts, ⟨-, rfl⟩ | ⟨cleared, ran, rfl⟩⟩ := start_ok started
  · exact Flat.fresh accepts fits
  · have before : Flat S config _ _ := Flat.fresh accepts fits
    obtain ⟨hx, hy⟩ := accepts.gridSize_pos fits
    obtain ⟨cells, same, flat, -⟩ := before.exec_eq Flat.coupled_clear first
    rw [clear_of_no_init nothing hx hy before.same.full before.same.flatSize, ran] at same
    rw [ran] at flat
    cases same
    exact flat

/-- Clearing any two reachable simulations goes the same way by the same draws, and leaves
the same cells behind where it succeeds. It does if nothing is to be worked out for the
empty type, and then the cells are those of a simulation that has just been started. -/
theorem clearing_forgets {script : List Char} {compiled : Script.Compiled}
    (h : Script.compile script = .ok compiled) (fits : config.Fits)
    (reachable : Reachable compiled.world config sim)
    (reachable' : Reachable compiled.world config other) {ρ : Type} [WordSource ρ] (words : ρ) :
    let left := Simulation.clear.run.run (⟨sim, words⟩ : State Simulation ρ)
    let right := Simulation.clear.run.run (⟨other, words⟩ : State Simulation ρ)
    left.1 = right.1 ∧ left.2.source = right.2.source ∧
      (left.1 = .ok () → left.2.board.size = right.2.board.size ∧
        left.2.board.snapshot = right.2.board.snapshot ∧
        ∀ p, left.2.board.cell? p = right.2.board.cell? p) ∧
      ((compiled.world.atom compiled.world.empty).init = [] → left.1 = .ok () ∧
        ∀ {σ : Type} [WordSource σ] (first : σ) (fresh : Simulation),
          Simulation.start compiled.world config first = .ok fresh →
            left.2.board.size = fresh.size ∧ left.2.board.snapshot = fresh.snapshot ∧
            ∀ p, left.2.board.cell? p = fresh.cell? p) := by
  intro left right
  have suits := lockStandard_suits h fits reachable
  obtain ⟨hx, hy⟩ := reachable.accepts.gridSize_pos fits
  obtain ⟨s, flat⟩ := reachable.exists_flat fits suits
  obtain ⟨t, flat'⟩ := reachable'.exists_flat fits suits
  obtain ⟨cells, ran, after, -⟩ := flat.exec_eq Flat.coupled_clear words
  obtain ⟨cells', ran', after', -⟩ := flat'.exec_eq Flat.coupled_clear words
  have own := (Script.shaped_atom h compiled.world.empty).1.init
  have full := And.intro flat.same.full flat'.same.full
  have sizes := And.intro flat.same.flatSize flat'.same.flatSize
  obtain ⟨result, draws, boards⟩ := clear_forgets own hx hy full sizes words
  rw [ran, ran'] at result draws boards
  refine ⟨result, draws, fun succeeds => ?_, fun nothing => ?_⟩
  · cases boards succeeds
    exact after.alike after'
  · have settled := clear_of_no_init nothing hx hy flat.same.full flat.same.flatSize words
    rw [ran] at settled
    have board : cells = .filled config.gridSize
        (compiled.world.atom compiled.world.empty).newCell :=
      congrArg (fun r => r.2.board) settled
    subst board
    refine ⟨congrArg Prod.fst settled, ?_⟩
    intro σ _ first fresh started
    exact after.alike (flat_of_start fits nothing started)

theorem lit_clearing_forgets :
    (Simulation.clear.run.run ⟨lit, (⟨7⟩ : Random.SplitMix)⟩).2.board.snapshot =
      dark.snapshot := by
  have started := Script.eq_ok_of_toOption (Option.some_get dark_starts).symm
  have nothing : (Script.glown.world.atom Script.glown.world.empty).init = [] :=
    List.isEmpty_iff.mp (by decide +kernel)
  have settled := (clearing_forgets Script.compile_glowing smallConfig_fits
    lit_undisturbed.reachable (.start started) (⟨7⟩ : Random.SplitMix)).2.2.2 nothing
  exact (settled.2 (⟨0⟩ : Random.SplitMix) dark started).2.1

end FallingSand
