import FallingSand.Proofs.Engine.Locality
import FallingSand.Proofs.Engine.Material

/-!
# Movements are swaps

A movement that is not wanted, leads out of the grid or meets a type that may not be replaced
does nothing at all. Otherwise the target and one of its neighbors change their cells, with
all properties, and every other cell stays: one below for a fall, one of the row below for
sand, which slides aside only off something, and any of the eight for a random
step.

A random step draws until it has a direction to a neighbor. The same search with a bound on its
tries finds the same direction or none, and finds it if only the bound is large enough; all of
this holds with any bound and without one.
-/

namespace FallingSand.Engine

open FallingSand.Random (WordSource Draws chance between)

/-! ## Searches for a direction -/

section Searches

variable {ρ : Type} [WordSource ρ]

/-- The search for a direction to a neighbor, given up after a number of tries. -/
def neighborWithin : Nat → StateM ρ (Option Vec)
  | 0 => return none
  | tries + 1 => do
    let offset ← drawOffset
    if offset = Vec.zero then neighborWithin tries else return some offset

/-- One more try: it gives a direction, or else the rest is left to the others. -/
theorem neighborWithin_succ (tries : Nat) (source : ρ) :
    (neighborWithin (tries + 1)).run source =
      if (drawOffset.run source).1 = Vec.zero then
        (neighborWithin tries).run (drawOffset.run source).2
      else (some (drawOffset.run source).1, (drawOffset.run source).2) := by
  have step {α δ : Type} (d : StateM ρ α) (f : α → StateM ρ δ) (source : ρ) :
      (d >>= f).run source = (f (d.run source).1).run (d.run source).2 := rfl
  rw [neighborWithin, step]
  split <;> rfl

/-- A direction that is drawn within some tries is the one that is drawn within more. -/
theorem neighborWithin_more {tries more : Nat} (le : tries ≤ more) {source after : ρ} {d : Vec}
    (h : (neighborWithin tries).run source = (some d, after)) :
    (neighborWithin more).run source = (some d, after) := by
  induction tries generalizing more source with
  | zero => cases h
  | succ tries ih =>
    obtain ⟨more, rfl⟩ : ∃ m, more = m + 1 := ⟨more - 1, by omega⟩
    rw [neighborWithin_succ] at h ⊢
    split at h
    · rename_i nowhere
      rw [if_pos nowhere]
      exact ih (by omega) h
    · rename_i somewhere
      rw [if_neg somewhere]
      exact h

/-- A direction that is drawn within some tries is the one that is drawn without a bound. -/
theorem neighborDirection_of_within {tries : Nat} {source after : ρ} {d : Vec}
    (h : (neighborWithin tries).run source = (some d, after)) :
    neighborDirection.run source = (some d, after) := by
  rw [neighborDirection_eq_some_iff]
  induction tries generalizing source with
  | zero => cases h
  | succ tries ih =>
    rw [neighborWithin_succ] at h
    split at h
    · rename_i nowhere
      exact .later nowhere (ih h)
    · rename_i somewhere
      cases h
      exact .now somewhere

/-- A search that ends takes some number of tries. -/
theorem exists_within {source : ρ} {found : Vec × ρ} (leads : LeadsTo source found) :
    ∃ tries, (neighborWithin tries).run source = (some found.1, found.2) := by
  induction leads with
  | now somewhere =>
    refine ⟨1, ?_⟩
    rw [neighborWithin_succ, if_neg somewhere]
  | later nowhere _ ih =>
    obtain ⟨tries, drawn⟩ := ih
    refine ⟨tries + 1, ?_⟩
    rw [neighborWithin_succ, if_pos nowhere]
    exact drawn

theorem neighborWithin_moves (tries : Nat) : Draws (neighborWithin tries : StateM ρ (Option Vec))
    fun found => ∀ d, found = some d → IsUnit d ∧ d ≠ Vec.zero := by
  intro source d h
  have drawn := neighborDirection_of_within (Prod.ext h rfl :
    (neighborWithin tries).run source = (some d, ((neighborWithin tries).run source).2))
  exact neighborDirection_moves source d (congrArg Prod.fst drawn)

end Searches

/-! ## Movements with any search -/

section Movements

variable {β ρ : Type} [WordSource ρ] [Board β]

/-- The direction of a movement, when a random step uses a search of its own. -/
def directionBy (search : StateM ρ (Option Vec)) (world : World) (movement : Movement)
    (target : Vec) : Action β ρ (Option Vec) :=
  match movement with
  | .randomMove => do
    match ← draw search with
    | some offset => return some offset
    | none => throw .noDirection
  | other => direction world other target

/-- What a movement does in its direction. -/
def advance (world : World) (owner : AtomType) (extension : Extension) (target : Vec) :
    Option Vec → Action β ρ Bool
  | none => return false
  | some offset => do
    let neighbor := target + offset
    if !(← inGrid neighbor) then return false
    else if !world.accepts owner extension.replaceable (← read neighbor).atom then return false
    else
      swap target neighbor
      return true

/-- A movement whose random step uses a search of its own. -/
def moveBy (search : StateM ρ (Option Vec)) (world : World) (owner : AtomType)
    (extension : Extension) (target : Vec) : Action β ρ Bool :=
  let hop := directionBy search world extension.movement target >>=
    advance world owner extension target
  match extension.probability with
  | some p => draw (chance p) >>= fun wanted => if wanted then hop else pure false
  | none => hop

/-- A movement whose direction may take some number of tries. -/
def moveWithin (tries : Nat) (world : World) (owner : AtomType) (extension : Extension)
    (target : Vec) : Action β ρ Bool :=
  moveBy (neighborWithin tries) world owner extension target

theorem move_eq_moveBy (world : World) (owner : AtomType) (extension : Extension)
    (target : Vec) : (move world owner extension target : Action β ρ Bool) =
      moveBy neighborDirection world owner extension target := by
  have hop_eq : (hop world owner extension target : Action β ρ Bool) =
      directionBy neighborDirection world extension.movement target >>=
        advance world owner extension target := by
    unfold hop directionBy
    cases extension.movement <;> rfl
  rw [move_eq, hop_eq]
  rfl

/-- The source that a movement searches with: its chance is drawn before. -/
def searchSource (extension : Extension) (source : ρ) : ρ :=
  match extension.probability with
  | some p => ((chance p).run source).2
  | none => source

end Movements

/-! ## Where movements lead -/

/-- Whether a position is right below another one. -/
def Below (p q : Vec) : Prop := q.x = p.x ∧ q.y.toInt = p.y.toInt + 1

/-- Where a movement may take the cell of a target. -/
def Allows (world : World) (s : Snapshot) (target q : Vec) : Movement → Prop
  | .fall => Below target q
  | .sandLike => (Vec.Near target q 1 ∧ q.y.toInt = target.y.toInt + 1) ∧
      (q.x ≠ target.x → ∃ below cell, Below target below ∧ s.cell? below = some cell ∧
        cell.atom ≠ world.empty)
  | .randomMove => Vec.Near target q 1

/-- A position that the cell of a target may change places with. -/
structure Legal (world : World) (owner : AtomType) (extension : Extension) (s : Snapshot)
    (target q : Vec) : Prop where
  inside : q.inBounds s.size = true
  other : q ≠ target
  accepted : ∃ cell, s.cell? q = some cell ∧
    world.accepts owner extension.replaceable cell.atom = true
  allowed : Allows world s target q extension.movement

/-- Two snapshots that differ in that the cells of two positions have changed places. -/
structure Exchanged (s t : Snapshot) (p q : Vec) : Prop where
  full : t.Full
  size : t.size = s.size
  cells : ∀ r, t.cell? r =
    if r = p then s.cell? q else if r = q then s.cell? p else s.cell? r

/-- How a movement may end: without effect, with a swap, or without effect since no direction
was found. -/
inductive Moved {ρ : Type} (world : World) (owner : AtomType) (extension : Extension)
    (s : Snapshot) (target : Vec) : Except Error Bool × State Snapshot ρ → Prop
  | stays {rest} : Moved world owner extension s target (.ok false, ⟨s, rest⟩)
  | swaps {q t rest} : Legal world owner extension s target q → Exchanged s t target q →
      Moved world owner extension s target (.ok true, ⟨t, rest⟩)
  | lost {rest} : extension.movement = .randomMove →
      Moved world owner extension s target (.error .noDirection, ⟨s, rest⟩)

variable {ρ : Type} {world : World} {owner : AtomType} {extension : Extension} {s : Snapshot}
  {target : Vec}

/-- A swap of two cells of the grid. -/
theorem exchanged_swap {q : Vec} (full : s.Full) (hp : target.inBounds s.size = true)
    (hq : q.inBounds s.size = true) (source : ρ) : ∃ t, Exchanged s t target q ∧
      exec (swap target q) ⟨s, source⟩ = (.ok (), ⟨t, source⟩) := by
  obtain ⟨first, atP⟩ := full.exists_cell hp
  obtain ⟨second, atQ⟩ := full.exists_cell hq
  have half := Snapshot.full_write full q first
  refine ⟨_, ⟨Snapshot.full_write half target second, by simp, ?_⟩,
    exec_swap full hp hq atP atQ source⟩
  intro r
  rw [Snapshot.cell?_write half (by simpa using hp), Snapshot.cell?_write full hq, atP, atQ]

/-! ## Directions -/

/-- The offsets that a movement may choose. -/
def Aims (world : World) (s : Snapshot) (target d : Vec) : Movement → Prop
  | .fall => d = ⟨0, 1⟩
  | .sandLike => (-1 ≤ d.x.toInt ∧ d.x.toInt ≤ 1) ∧ d.y = 1 ∧
      (d.x ≠ 0 → (target + ⟨0, 1⟩).inBounds s.size = true ∧
        ∃ cell, s.cell? (target + ⟨0, 1⟩) = some cell ∧ cell.atom ≠ world.empty)
  | .randomMove => IsUnit d ∧ d ≠ Vec.zero

theorem below_add {size : Vec} (inside : target.inBounds size = true)
    (there : (target + ⟨0, 1⟩).inBounds size = true) : Below target (target + ⟨0, 1⟩) := by
  rw [Vec.inBounds_iff] at inside there
  exact ⟨Int32.add_zero _, Vec.toInt_add_of_inside inside.2 there.2⟩

theorem add_ne_self {d : Vec} (moves : d ≠ Vec.zero) : target + d ≠ target := by
  intro same
  have back := Vec.add_sub_self_left target d
  rw [same] at back
  apply moves
  rw [← back]
  exact Vec.ext (Int32.sub_self _) (Int32.sub_self _)

theorem Aims.isUnit {d : Vec} {movement : Movement} (aims : Aims world s target d movement) :
    IsUnit d ∧ d ≠ Vec.zero := by
  cases movement with
  | fall =>
    cases aims
    unfold IsUnit
    decide
  | sandLike =>
    obtain ⟨x, y, -⟩ := aims
    refine ⟨⟨x, by rw [y]; decide⟩, ?_⟩
    rintro rfl
    cases y
  | randomMove => exact aims

/-- An offset that a movement may choose leads where the movement may lead. -/
theorem Aims.allows {d : Vec} {movement : Movement} (aims : Aims world s target d movement)
    (inside : target.inBounds s.size = true) (there : (target + d).inBounds s.size = true) :
    Allows world s target (target + d) movement := by
  have near := near_add_unit aims.isUnit.1 inside there
  cases movement with
  | fall =>
    cases aims
    exact below_add inside there
  | sandLike =>
    obtain ⟨-, down, aside⟩ := aims
    rw [Vec.inBounds_iff] at there
    have lower := Vec.toInt_add_of_inside ((Vec.inBounds_iff _ _).mp inside).2 there.2
    rw [down] at lower
    refine ⟨⟨near, by rw [Vec.add_y, down]; exact lower⟩, ?_⟩
    intro elsewhere
    have slides : d.x ≠ 0 := by
      intro straight
      apply elsewhere
      rw [Vec.add_x, straight, Int32.add_zero]
    obtain ⟨within, cell, found, firm⟩ := aside slides
    exact ⟨_, cell, below_add inside within, found, firm⟩
  | randomMove => exact near

/-- What a movement does in a direction that it may choose. -/
theorem moved_advance (full : s.Full) (inside : target.inBounds s.size = true) {d : Vec}
    (aims : Aims world s target d extension.movement) (source : ρ) :
    Moved world owner extension s target
      (exec (advance world owner extension target (some d)) ⟨s, source⟩) := by
  unfold advance
  dsimp only
  rw [exec_bind, exec_inGrid]
  cases there : (target + d).inBounds s.size with
  | false =>
    rw [show Board.inGrid s (target + d) = false from there]
    exact .stays
  | true =>
    obtain ⟨cell, found⟩ := full.exists_cell there
    rw [show Board.inGrid s (target + d) = true from there]
    dsimp only
    rw [if_neg (by decide), exec_bind, exec_read_of_cell? found]
    dsimp only
    cases accepted : world.accepts owner extension.replaceable cell.atom with
    | false => exact .stays
    | true =>
      obtain ⟨t, exchanged, done⟩ := exchanged_swap full inside there source
      rw [if_neg (by decide), exec_bind, done]
      exact .swaps ⟨there, add_ne_self aims.isUnit.2, ⟨cell, found, accepted⟩,
        aims.allows inside there⟩ exchanged

variable [WordSource ρ]

/-- The direction of sand: down, or aside if there is something below. -/
theorem exec_direction_sandLike (full : s.Full) (target : Vec) (source : ρ) : ∃ rest,
    exec (direction world .sandLike target) ⟨s, source⟩ = (.ok none, ⟨s, rest⟩) ∨
    ∃ d, Aims world s target d .sandLike ∧
      exec (direction world .sandLike target) ⟨s, source⟩ = (.ok (some d), ⟨s, rest⟩) := by
  have unit := Random.between_unit source
  unfold direction
  rw [exec_bind, exec_draw]
  generalize (between (-1) 1).run source = drawn at unit ⊢
  obtain ⟨x, rest⟩ := drawn
  refine ⟨rest, ?_⟩
  dsimp only
  by_cases straight : x = 0
  · rw [if_pos straight]
    exact .inr ⟨⟨x, 1⟩, ⟨unit, rfl, fun aside => absurd straight aside⟩, rfl⟩
  · rw [if_neg straight, exec_bind, exec_inGrid]
    cases inside : (target + ⟨0, 1⟩).inBounds s.size with
    | false =>
      rw [show Board.inGrid s (target + ⟨0, 1⟩) = false from inside]
      exact .inl rfl
    | true =>
      obtain ⟨cell, found⟩ := full.exists_cell inside
      rw [show Board.inGrid s (target + ⟨0, 1⟩) = true from inside]
      dsimp only
      rw [if_neg (by decide), exec_bind, exec_read_of_cell? found]
      dsimp only
      by_cases loose : cell.atom = world.empty
      · rw [if_pos loose]
        exact .inl rfl
      · rw [if_neg loose]
        exact .inr ⟨⟨x, 1⟩, ⟨unit, rfl, fun _ => ⟨inside, cell, found, loose⟩⟩, rfl⟩

/-- What a search may find: a neighbor, or nothing. -/
def FindsNeighbors (search : StateM ρ (Option Vec)) : Prop :=
  Draws search fun found => ∀ d, found = some d → IsUnit d ∧ d ≠ Vec.zero

/-- What comes of choosing a direction: none, one that the movement may choose, or a search
that finds nothing. -/
theorem exec_directionBy (full : s.Full) (target : Vec) {search : StateM ρ (Option Vec)}
    (finds : FindsNeighbors search) (movement : Movement) (source : ρ) : ∃ rest,
      exec (directionBy search world movement target) ⟨s, source⟩ = (.ok none, ⟨s, rest⟩) ∨
      (∃ d, Aims world s target d movement ∧
        exec (directionBy search world movement target) ⟨s, source⟩ =
          (.ok (some d), ⟨s, rest⟩)) ∨
      movement = .randomMove ∧
        exec (directionBy search world movement target) ⟨s, source⟩ =
          (.error .noDirection, ⟨s, rest⟩) := by
  cases movement with
  | fall => exact ⟨source, .inr (.inl ⟨⟨0, 1⟩, rfl, rfl⟩)⟩
  | sandLike =>
    obtain ⟨rest, none | some⟩ := exec_direction_sandLike full target source
    · exact ⟨rest, .inl none⟩
    · exact ⟨rest, .inr (.inl some)⟩
  | randomMove =>
    have moves := finds source
    unfold directionBy
    rw [exec_bind, exec_draw]
    generalize search.run source = drawn at moves ⊢
    obtain ⟨found, rest⟩ := drawn
    refine ⟨rest, .inr ?_⟩
    cases found with
    | none => exact .inr ⟨rfl, rfl⟩
    | some d => exact .inl ⟨d, moves d rfl, rfl⟩

/-! ## Movements -/

/-- A movement that is wanted. -/
theorem moved_hop (full : s.Full) (inside : target.inBounds s.size = true)
    {search : StateM ρ (Option Vec)} (finds : FindsNeighbors search) (source : ρ) :
    Moved world owner extension s target
      (exec (directionBy search world extension.movement target >>=
        advance world owner extension target) ⟨s, source⟩) := by
  obtain ⟨rest, stay | ⟨d, aims, chosen⟩ | ⟨random, stuck⟩⟩ :=
    exec_directionBy full target finds extension.movement source
  · rw [exec_bind, stay]
    exact .stays
  · rw [exec_bind, chosen]
    exact moved_advance full inside aims rest
  · rw [exec_bind, stuck]
    exact .lost random

theorem moved_moveBy (full : s.Full) (inside : target.inBounds s.size = true)
    {search : StateM ρ (Option Vec)} (finds : FindsNeighbors search) (source : ρ) :
    Moved world owner extension s target
      (exec (moveBy search world owner extension target) ⟨s, source⟩) := by
  unfold moveBy
  cases extension.probability with
  | none => exact moved_hop full inside finds source
  | some p =>
    rw [exec_bind, exec_draw]
    dsimp only
    split
    · exact moved_hop full inside finds _
    · exact .stays

/-- A movement without a chance stays. -/
theorem moveBy_of_zero {p : Float} (chances : extension.probability = some p)
    (zero : (p == 0.0) = true) (search : StateM ρ (Option Vec)) (source : ρ) : ∃ rest,
      exec (moveBy search world owner extension target) ⟨s, source⟩ =
        (.ok false, ⟨s, rest⟩) := by
  have never := Random.chance_zero zero source
  unfold moveBy
  rw [chances]
  dsimp only
  rw [exec_bind, exec_draw]
  dsimp only
  rw [never]
  exact ⟨_, rfl⟩

/-! ## Searches that agree -/

/-- Whether a direction that one search finds is found by another one too. -/
def Agrees (search other : StateM ρ (Option Vec)) (source : ρ) : Prop :=
  ∀ d after, search.run source = (some d, after) → other.run source = (some d, after)

variable {search other : StateM ρ (Option Vec)}

theorem directionBy_of_agrees {source : ρ} (agrees : Agrees search other source)
    {movement : Movement} {found : Option Vec} {after : State Snapshot ρ}
    (h : exec (directionBy search world movement target) ⟨s, source⟩ = (.ok found, after)) :
    exec (directionBy other world movement target) ⟨s, source⟩ = (.ok found, after) := by
  cases movement with
  | fall => exact h
  | sandLike => exact h
  | randomMove =>
    unfold directionBy at h ⊢
    rw [exec_bind, exec_draw] at h ⊢
    cases drawn : search.run source with
    | mk direction rest =>
      rw [drawn] at h
      cases direction with
      | none => cases h
      | some d =>
        rw [agrees d rest drawn]
        exact h

/-- A movement that ends with a result ends in the same way with a search that agrees. -/
theorem moveBy_of_agrees {source : ρ} (agrees : Agrees search other (searchSource extension source))
    {moved : Bool} {after : State Snapshot ρ}
    (h : exec (moveBy search world owner extension target) ⟨s, source⟩ = (.ok moved, after)) :
    exec (moveBy other world owner extension target) ⟨s, source⟩ = (.ok moved, after) := by
  have hop {source : ρ} (agrees : Agrees search other source)
      (h : exec (directionBy search world extension.movement target >>=
        advance world owner extension target) ⟨s, source⟩ = (.ok moved, after)) :
      exec (directionBy other world extension.movement target >>=
        advance world owner extension target) ⟨s, source⟩ = (.ok moved, after) := by
    obtain ⟨found, between, first, next⟩ := exec_bind_ok h
    rw [exec_bind, directionBy_of_agrees agrees first]
    exact next
  unfold searchSource at agrees
  unfold moveBy at h ⊢
  cases chances : extension.probability with
  | none =>
    rw [chances] at h agrees
    exact hop agrees h
  | some p =>
    rw [chances] at h agrees
    dsimp only at h agrees ⊢
    rw [exec_bind, exec_draw] at h ⊢
    dsimp only at h ⊢
    by_cases wanted : ((chance p).run source).1 = true
    · rw [if_pos wanted] at h ⊢
      exact hop agrees h
    · rw [if_neg wanted] at h ⊢
      exact h

/-- At each source some number of tries is as good as no bound. -/
theorem exists_agrees (source : ρ) :
    ∃ tries, Agrees neighborDirection (neighborWithin tries) source := by
  by_cases ends : ∃ found, LeadsTo source found
  · obtain ⟨found, leads⟩ := ends
    obtain ⟨tries, enough⟩ := exists_within leads
    refine ⟨tries, fun d after drawn => ?_⟩
    rw [neighborDirection_eq_some_iff.mpr leads] at drawn
    cases drawn
    exact enough
  · refine ⟨0, fun d after drawn => ?_⟩
    exact absurd ⟨_, neighborDirection_eq_some_iff.mp drawn⟩ ends

theorem move_ok_iff {moved : Bool} {source : ρ} {after : State Snapshot ρ} :
    exec (move world owner extension target) ⟨s, source⟩ = (.ok moved, after) ↔
      ∃ tries, exec (moveWithin tries world owner extension target) ⟨s, source⟩ =
        (.ok moved, after) := by
  rw [move_eq_moveBy]
  constructor
  · intro h
    obtain ⟨tries, agrees⟩ := exists_agrees (searchSource extension source)
    exact ⟨tries, moveBy_of_agrees agrees h⟩
  · rintro ⟨tries, h⟩
    exact moveBy_of_agrees (fun d after drawn => neighborDirection_of_within drawn) h

/-- A movement does nothing, or swaps the target with a position that it may be swapped with.
It fails only if there is never a direction to move in, and it ends with a result just if it does
so within some number of tries. The same holds of a movement with a bound on its tries, which with
more tries ends in the same way once it ends with a result. Without a chance a movement does
nothing. -/
theorem move_stays_or_swaps (full : s.Full) (inside : target.inBounds s.size = true)
    (world : World) (owner : AtomType) (extension : Extension) (source : ρ) :
    (Moved world owner extension s target
        (exec (move world owner extension target) ⟨s, source⟩) ∧
      (∀ moved after, exec (move world owner extension target) ⟨s, source⟩ = (.ok moved, after) ↔
        ∃ tries, exec (moveWithin tries world owner extension target) ⟨s, source⟩ =
          (.ok moved, after)) ∧
      ∀ p, extension.probability = some p → (p == 0.0) = true → ∃ rest,
        exec (move world owner extension target) ⟨s, source⟩ = (.ok false, ⟨s, rest⟩)) ∧
    ∀ tries,
      Moved world owner extension s target
        (exec (moveWithin tries world owner extension target) ⟨s, source⟩) ∧
      (∀ moved after, exec (moveWithin tries world owner extension target) ⟨s, source⟩ =
          (.ok moved, after) → ∀ more, tries ≤ more →
        exec (moveWithin more world owner extension target) ⟨s, source⟩ = (.ok moved, after)) ∧
      ∀ p, extension.probability = some p → (p == 0.0) = true → ∃ rest,
        exec (moveWithin tries world owner extension target) ⟨s, source⟩ =
          (.ok false, ⟨s, rest⟩) := by
  refine ⟨⟨?_, fun moved after => move_ok_iff, ?_⟩, fun tries => ⟨?_, ?_, ?_⟩⟩
  · rw [move_eq_moveBy]
    exact moved_moveBy full inside neighborDirection_moves source
  · intro p chances zero
    rw [move_eq_moveBy]
    exact moveBy_of_zero chances zero neighborDirection source
  · exact moved_moveBy full inside (neighborWithin_moves tries) source
  · intro moved after h more le
    exact moveBy_of_agrees (fun d after drawn => neighborWithin_more le drawn) h
  · intro p chances zero
    exact moveBy_of_zero chances zero (neighborWithin tries) source

/-- A world of a single type. -/
def dust : World where
  atoms := #[{ id := 0, name := emptyName, aliasName := none }]
  defaults := {}
  preload := []
  nonempty := by decide

/-- A movement down, through anything. -/
def sinking : Extension := ⟨.fall, "~nothing", none, {}⟩

/-- Two cells, one above the other, of which the lower one has a property. -/
def column : Snapshot := ⟨⟨1, 2⟩, #[⟨0, {}⟩, Cell.set ⟨0, {}⟩ "heat" 1.5]⟩

theorem sinking_swaps : column.Full ∧ (⟨0, 0⟩ : Vec).inBounds column.size = true ∧
    ∃ q t rest, Legal dust dust.first sinking column ⟨0, 0⟩ q ∧
      Exchanged column t ⟨0, 0⟩ q ∧
      exec (move dust dust.first sinking ⟨0, 0⟩) ⟨column, (⟨7⟩ : Random.SplitMix)⟩ =
        (.ok true, ⟨t, rest⟩) := by
  have full : column.Full := rfl
  have inside : (⟨0, 0⟩ : Vec).inBounds column.size = true := by decide
  refine ⟨full, inside, ?_⟩
  have moved :=
    (move_stays_or_swaps full inside dust dust.first sinking (⟨7⟩ : Random.SplitMix)).1.1
  have succeeds : (exec (move dust dust.first sinking ⟨0, 0⟩)
      ⟨column, (⟨7⟩ : Random.SplitMix)⟩).1.toOption = some true := by decide
  revert moved succeeds
  generalize exec (move dust dust.first sinking ⟨0, 0⟩)
    ⟨column, (⟨7⟩ : Random.SplitMix)⟩ = ended
  intro moved succeeds
  cases moved with
  | stays => cases succeeds
  | swaps legal exchanged => exact ⟨_, _, _, legal, exchanged, rfl⟩
  | lost _ => cases succeeds

end FallingSand.Engine
