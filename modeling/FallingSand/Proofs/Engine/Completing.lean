import FallingSand.Proofs.Engine.Boxes
import FallingSand.Proofs.Engine.Locality
import FallingSand.Proofs.World.Typing
import FallingSand.Simulation.Basic

/-!
# Complete cells

While a cell changes its type it lacks what is still to be worked out for it. Once
the change is through it is complete, and if the change fails the whole action does.
So whatever is done to a board of complete cells leaves complete cells behind, unless
it fails. A change of type counts as one step here; all other steps write cells that
were on the board, or add to them.

Filling a rectangle changes the type of its chosen cells, one position after the other: each
becomes a new cell and is counted, and no other cell changes.
-/

namespace FallingSand.Engine

open FallingSand.Random (WordSource)

variable {ρ : Type} {world : World} {size : Vec} {s : Snapshot}

/-! ## New cells -/

section New

variable [WordSource ρ]

/-- What becomes of a cell when properties are worked out for it, each from what the cell is
by then. -/
inductive Grown (world : World) : List (String × Expr) → Cell → ρ → Cell → Prop
  | done (cell : Cell) (source : ρ) : Grown world [] cell source cell
  | grow {name : String} {e : Expr} {rest : List (String × Expr)} {cell made : Cell}
      {source : ρ} {x : Float} :
      ((e.eval (ownLook world cell)).run source).1 = .ok (some x) →
      Grown world rest (cell.set name x.toFloat32)
        ((e.eval (ownLook world cell)).run source).2 made →
      Grown world ((name, e) :: rest) cell source made

namespace Grown

variable {entries : List (String × Expr)} {cell made : Cell} {source : ρ}

theorem extends_start (grown : Grown world entries cell source made) : made.Extends cell := by
  induction grown with
  | done cell source => exact .refl cell
  | grow value rest ih => exact ih.trans (.set _ _ _)

/-- All the properties are there in the end. -/
theorem has_entries (grown : Grown world entries cell source made) :
    ∀ entry ∈ entries, (made.properties.get? entry.1).isSome := by
  induction grown with
  | done cell source => exact fun entry member => (nomatch member)
  | grow value rest ih =>
    intro entry member
    rcases List.mem_cons.mp member with rfl | later
    · refine rest.extends_start.properties _ ?_
      rw [Cell.get?_set, if_pos rfl]
      rfl
    · exact ih entry later

/-- No other property changes. -/
theorem get?_eq (grown : Grown world entries cell source made) {name : String}
    (other : ∀ entry ∈ entries, entry.1 ≠ name) :
    made.properties.get? name = cell.properties.get? name := by
  induction grown with
  | done cell source => rfl
  | grow value rest ih =>
    rw [ih fun entry member => other entry (List.mem_cons_of_mem _ member), Cell.get?_set,
      if_neg (other _ List.mem_cons_self)]

end Grown

/-- A new cell of a type, with what the type works out for new cells by some random words. -/
def Fresh (ρ : Type) [WordSource ρ] (world : World) (id : AtomId) (cell : Cell) : Prop :=
  ∃ source : ρ, Grown world (world.atom id).init (world.atom id).newCell source cell

theorem Fresh.complete (regular : world.Regular) {id : AtomId} {cell : Cell}
    (fresh : Fresh ρ world id cell) : cell.Complete world := by
  obtain ⟨source, grown⟩ := fresh
  have extension := grown.extends_start
  refine ⟨(Cell.Typed.new regular.numbered regular.few id).extend extension, ?_⟩
  intro entry member
  rw [extension.atom, regular.numbered.atom_newCell regular.few] at member
  exact grown.has_entries entry member

/-- Working out properties, if it does not fail, adds all of them. -/
theorem grown_workOut {entries : List (String × Expr)} {cell : Cell} {source : ρ}
    (ended : (workOut world entries cell source).1 = .ok ()) :
    Grown world entries cell source (workOut world entries cell source).2.1 := by
  induction entries generalizing cell source with
  | nil => exact .done cell source
  | cons entry rest ih =>
    obtain ⟨name, e⟩ := entry
    -- A cell can always be asked about itself.
    have within : ((e.eval (ownLook world cell)).run source).1 ≠ .ok none := by
      refine Expr.eval_ne_none ?_ source
      intro slot _ outside
      unfold ownLook at outside
      split at outside <;> cases outside
    unfold workOut at ended ⊢
    cases value : ((e.eval (ownLook world cell)).run source).1 with
    | error error =>
      simp only [value] at ended
      cases ended
    | ok found =>
      cases found with
      | none => exact absurd value within
      | some x =>
        simp only [value] at ended ⊢
        exact .grow value (ih ended)

/-- A change of type that goes through leaves a new cell. -/
theorem exec_retype_ok {p : Vec} (full : s.Full) (inside : p.inBounds s.size = true)
    {id : AtomId} (shaped : (world.atom id).Shaped) {source : ρ} {after : State Snapshot ρ}
    (h : exec (retype world p id) ⟨s, source⟩ = (.ok (), after)) :
    ∃ made : Cell, after.board = s.write p made ∧ Fresh ρ world id made := by
  rw [retype_eq, exec_makeCell_workOut shaped.init _ full inside] at h
  obtain ⟨ended, rfl⟩ := Prod.mk.inj h
  exact ⟨_, rfl, source, grown_workOut ended⟩

end New

/-! ## Boards of complete cells -/

/-- Snapshots of a size that have all of their cells, and all of them complete. -/
structure Completed (world : World) (size : Vec) (s : Snapshot) : Prop where
  full : s.Full
  size : s.size = size
  cells : ∀ p cell, s.cell? p = some cell → cell.Complete world

theorem Completed.write (completed : Completed world size s) {p : Vec} {cell : Cell}
    (inside : p.inBounds size = true) (complete : cell.Complete world) :
    Completed world size (s.write p cell) := by
  obtain ⟨full, rfl, cells⟩ := completed
  refine ⟨Snapshot.full_write full p cell, Snapshot.size_write s p cell, ?_⟩
  intro q other found
  rw [Snapshot.cell?_write full inside] at found
  split at found
  · cases found
    exact complete
  · exact cells q other found

/-- A board of complete cells and the same board, until something fails. -/
def completeBridge (world : World) (size : Vec) : Bridge world Snapshot Snapshot where
  boards s t := s = t ∧ Completed world size s
  faults _ _ _ _ := True
  good := Cell.Complete world
  allowed _ := True
  good_set name x complete := complete.set name x
  allowed_formula _ _ := trivial
  allowed_direction := trivial
  size := size
  meets p q := p = q
  size_left boards := boards.2.size
  size_right := by
    rintro s _ ⟨rfl, completed⟩
    exact completed.size
  inBounds_eq := by
    rintro p _ rfl
    rfl
  cells := by
    rintro s _ p _ ⟨rfl, completed⟩ rfl inside
    rw [← completed.size] at inside
    obtain ⟨cell, found⟩ := completed.full.exists_cell inside
    exact ⟨cell, found, found, completed.cells p cell found⟩
  writes := by
    rintro s _ p _ cell ⟨rfl, completed⟩ rfl inside complete
    exact ⟨rfl, completed.write inside complete⟩
  faults_of_allowed _ _ := trivial

theorem completed_of_coupled {α : Type} {m : Action Snapshot ρ α}
    (coupled : Coupled (completeBridge world size).toTie Eq m m)
    (completed : Completed world size s) {source : ρ} {x : α} {after : State Snapshot ρ}
    (h : exec m ⟨s, source⟩ = (.ok x, after)) : Completed world size after.board := by
  have ends := coupled s s source ⟨rfl, completed⟩
  rw [h] at ends
  cases ends with
  | result _ boards => exact boards.2

theorem completeBridge_retypes [WordSource ρ] (regular : world.Regular) :
    (completeBridge world size).Retypes ρ := by
  rintro p _ rfl inside id s _ source ⟨rfl, completed⟩
  have here : p.inBounds s.size = true := by
    rw [completed.size]
    exact inside
  cases changed : exec (retype world p id) (⟨s, source⟩ : State Snapshot ρ) with
  | mk result after =>
    cases result with
    | error e => exact .fault trivial
    | ok x =>
      obtain ⟨made, board, fresh⟩ := exec_retype_ok completed.full here (regular.shaped id) changed
      refine .result rfl ⟨rfl, ?_⟩
      rw [board]
      exact completed.write inside (fresh.complete regular)

/-- A tick that does not fail leaves complete cells. -/
theorem Completed.tick [WordSource ρ] (regular : world.Regular)
    (completed : Completed world size s) {target : Vec} {source : ρ} {outcome : Outcome}
    {after : State Snapshot ρ}
    (h : exec (Engine.tick world target) ⟨s, source⟩ = (.ok outcome, after)) :
    Completed world size after.board := by
  -- All positions meet themselves, so they do as far as any rule reaches.
  have near : (completeBridge world size).MeetsNear target UInt32.size := fun _ _ => rfl
  refine completed_of_coupled ?_ completed h
  refine near.coupled_tick (completeBridge_retypes regular) (by decide) rfl ?_
  intro id rule member
  exact ⟨regular.anchored id rule member, rule.reach.toNat_lt.le, fun _ _ _ _ _ _ _ _ => trivial⟩

/-! ## Filling rectangles -/

section Filling

variable {chosen : Cell → Bool} {id : AtomId} {positions : List Vec} {t : Snapshot}

/-- A snapshot where the chosen cells of a list of positions have become new cells of a type,
and no other cell has changed. -/
structure Refilled (ρ : Type) [WordSource ρ] (world : World) (chosen : Cell → Bool)
    (id : AtomId) (positions : List Vec) (s t : Snapshot) : Prop where
  full : t.Full
  size : t.size = s.size
  made : ∀ p ∈ positions, ∀ cell, s.cell? p = some cell → chosen cell = true →
    ∃ made, t.cell? p = some made ∧ Fresh ρ world id made
  kept : ∀ p cell, s.cell? p = some cell → (p ∈ positions → chosen cell = false) →
    t.cell? p = some cell

namespace Refilled

variable [WordSource ρ]

theorem nil (full : s.Full) : Refilled ρ world chosen id [] s s :=
  ⟨full, rfl, fun _ member => (nomatch member), fun _ _ found _ => found⟩

/-- One more position, which does not come again. -/
theorem cons {p : Vec} {u : Snapshot} (first : Refilled ρ world chosen id [p] s t)
    (rest : Refilled ρ world chosen id positions t u) (once : p ∉ positions) :
    Refilled ρ world chosen id (p :: positions) s u := by
  refine ⟨rest.full, rest.size.trans first.size, ?_, ?_⟩
  · intro q member cell found wanted
    rcases List.mem_cons.mp member with rfl | later
    · obtain ⟨made, there, fresh⟩ := first.made q List.mem_cons_self cell found wanted
      exact ⟨made, rest.kept q made there fun again => absurd again once, fresh⟩
    · have elsewhere : q ≠ p := fun same => once (same ▸ later)
      have kept := first.kept q cell found fun same => absurd (List.mem_singleton.mp same) elsewhere
      exact rest.made q later cell kept wanted
  · intro q cell found spared
    have kept := first.kept q cell found fun same =>
      spared (List.mem_singleton.mp same ▸ List.mem_cons_self)
    exact rest.kept q cell kept fun later => spared (List.mem_cons_of_mem _ later)

/-- Nothing changes elsewhere. -/
theorem cell?_eq (refilled : Refilled ρ world chosen id positions s t) (full : s.Full) {p : Vec}
    (elsewhere : p ∉ positions) : t.cell? p = s.cell? p := by
  by_cases inside : p.inBounds s.size = true
  · obtain ⟨cell, found⟩ := full.exists_cell inside
    rw [found]
    exact refilled.kept p cell found fun member => absurd member elsewhere
  · have outside := Bool.eq_false_iff.mpr inside
    rw [Snapshot.cell?_eq_none outside, Snapshot.cell?_eq_none (refilled.size ▸ outside)]

/-- Where every cell was complete or has become a new one, every cell is complete. -/
theorem completed (refilled : Refilled ρ world chosen id positions s t) (regular : world.Regular)
    (full : s.Full) (hs : s.size = size) (old : ∀ p cell, s.cell? p = some cell →
      (p ∈ positions → chosen cell = false) → cell.Complete world) : Completed world size t := by
  refine ⟨refilled.full, refilled.size.trans hs, ?_⟩
  intro p cell found
  have inside := Snapshot.inBounds_of_cell? found
  rw [refilled.size] at inside
  obtain ⟨before, there⟩ := full.exists_cell inside
  by_cases wanted : p ∈ positions ∧ chosen before = true
  · obtain ⟨made, here, fresh⟩ := refilled.made p wanted.1 before there wanted.2
    rw [found] at here
    cases here
    exact fresh.complete regular
  · have spared : p ∈ positions → chosen before = false := fun member =>
      Bool.eq_false_iff.mpr fun now => wanted ⟨member, now⟩
    have here := refilled.kept p before there spared
    rw [found] at here
    cases here
    exact old p cell there spared

end Refilled

variable [WordSource ρ] (shaped : (world.atom id).Shaped)

include shaped

/-- One position is filled if its cell is chosen, and counted. -/
theorem refilled_of_retypeChosen (full : s.Full) {p : Vec} (inside : p.inBounds s.size = true)
    {count n : Nat} {source : ρ} {after : State Snapshot ρ}
    (h : exec (Simulation.retypeChosen chosen id world count p) ⟨s, source⟩ = (.ok n, after)) :
    Refilled ρ world chosen id [p] s after.board ∧
      n = count + [p].countP fun q => (s.cell? q).any chosen := by
  obtain ⟨cell, here⟩ := full.exists_cell inside
  unfold Simulation.retypeChosen at h
  rw [exec_bind, exec_read_of_cell? here] at h
  dsimp only at h
  split at h
  · rename_i wanted
    obtain ⟨_, next, changed, rest⟩ := exec_bind_ok h
    cases rest
    obtain ⟨made, board, fresh⟩ := exec_retype_ok full inside shaped changed
    rw [board]
    refine ⟨⟨Snapshot.full_write full p made, Snapshot.size_write s p made, ?_, ?_⟩, ?_⟩
    · intro q member other found _
      rw [List.mem_singleton.mp member]
      exact ⟨made, by rw [Snapshot.cell?_write full inside, if_pos rfl], fresh⟩
    · intro q other found spared
      rw [Snapshot.cell?_write full inside, if_neg, found]
      rintro rfl
      rw [here] at found
      cases found
      rw [spared List.mem_cons_self] at wanted
      cases wanted
    · simp [here, wanted]
  · rename_i spared
    cases h
    refine ⟨⟨full, rfl, ?_, fun _ _ found _ => found⟩, ?_⟩
    · intro q member other found wanted
      rw [List.mem_singleton.mp member, here] at found
      cases found
      exact absurd wanted spared
    · simp [here, spared]

/-- By induction on the positions, each of which comes once. -/
theorem refilled_of_foldlM (full : s.Full) (distinct : positions.Nodup)
    (inside : ∀ p ∈ positions, p.inBounds s.size = true) {count n : Nat} {source : ρ}
    {after : State Snapshot ρ}
    (h : exec (positions.foldlM (Simulation.retypeChosen chosen id world) count) ⟨s, source⟩ =
      (.ok n, after)) : Refilled ρ world chosen id positions s after.board ∧
        n = count + positions.countP fun q => (s.cell? q).any chosen := by
  induction positions generalizing s count source with
  | nil =>
    cases h
    exact ⟨.nil full, rfl⟩
  | cons p rest ih =>
    rw [List.foldlM_cons] at h
    obtain ⟨m, next, changed, remaining⟩ := exec_bind_ok h
    obtain ⟨once, distinct⟩ := List.nodup_cons.mp distinct
    obtain ⟨first, one⟩ :=
      refilled_of_retypeChosen shaped full (inside p List.mem_cons_self) changed
    obtain ⟨later, others⟩ := ih first.full distinct
      (fun q member => by rw [first.size]; exact inside q (List.mem_cons_of_mem _ member)) remaining
    -- What is chosen later has not been changed yet.
    have same : (rest.countP fun q => (next.board.cell? q).any chosen) =
        rest.countP fun q => (s.cell? q).any chosen := by
      refine List.countP_congr ?_
      intro q member
      have elsewhere : q ∉ [p] := fun here => once (List.mem_singleton.mp here ▸ member)
      rw [first.cell?_eq full elsewhere]
    refine ⟨first.cons later once, ?_⟩
    rw [others, one, same, Nat.add_assoc, ← List.countP_append]
    rfl

omit shaped

/-- Where no cell is chosen nothing happens. -/
theorem exec_foldlM_spared {β : Type} [Board β] {b : β} {positions : List Vec}
    (spared : ∀ p ∈ positions, ∃ cell, Board.cell? b p = some cell ∧ chosen cell = false)
    (count : Nat) (source : ρ) :
    exec (positions.foldlM (Simulation.retypeChosen chosen id world) count) ⟨b, source⟩ =
      (.ok count, ⟨b, source⟩) := by
  induction positions with
  | nil => rfl
  | cons p rest ih =>
    obtain ⟨cell, found, left⟩ := spared p List.mem_cons_self
    have step : exec (Simulation.retypeChosen chosen id world count p) ⟨b, source⟩ =
        (.ok count, ⟨b, source⟩) := by
      unfold Simulation.retypeChosen
      rw [exec_bind, exec_read_of_cell? found]
      dsimp only
      rw [left]
      rfl
    rw [List.foldlM_cons, exec_bind, step]
    exact ih fun q member => spared q (List.mem_cons_of_mem _ member)

end Filling

end FallingSand.Engine
