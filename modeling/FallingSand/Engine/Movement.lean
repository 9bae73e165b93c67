import FallingSand.Engine.Action

/-!
# Movements

A movement makes a cell change places with a neighbor, if the neighbor is in the
grid and of a type that may be replaced. Both cells move as a whole. A step to any
neighbor draws until it has a direction, however often that is.
-/

namespace FallingSand.Engine

open FallingSand.Random (WordSource between chance)

variable {β ρ : Type} [WordSource ρ]

/-- A pair of draws, read as an offset. -/
def drawOffset : StateM ρ Vec := do
  let x ← between (-1) 1
  let y ← between (-1) 1
  return ⟨x, y⟩

/-- Pairs are drawn until one is not zero: that pair, and the source that is left. A source
that only ever gives zeros leads to nothing. -/
inductive LeadsTo : ρ → Vec × ρ → Prop
  | now {source : ρ} (somewhere : (drawOffset.run source).1 ≠ Vec.zero) :
      LeadsTo source (drawOffset.run source)
  | later {source : ρ} {found : Vec × ρ} (nowhere : (drawOffset.run source).1 = Vec.zero)
      (rest : LeadsTo (drawOffset.run source).2 found) : LeadsTo source found

/-- A source that is reached when pairs of zeros are skipped. -/
structure Skipped (source : ρ) where
  next : ρ
  back : ∀ {found}, LeadsTo next found → LeadsTo source found

/-- Draws one pair. If it is zero it is skipped, and otherwise the search is over. -/
def searchStep (source : ρ) (skipped : Skipped source) :
    Skipped source ⊕ Option { found // LeadsTo source found } :=
  if nowhere : (drawOffset.run skipped.next).1 = Vec.zero then
    .inl ⟨(drawOffset.run skipped.next).2, fun rest => skipped.back (.later nowhere rest)⟩
  else .inr (some ⟨drawOffset.run skipped.next, skipped.back (.now nowhere)⟩)

/-- What the draws of a source lead to, found by drawing on. Where they lead to nothing the
search does not end. -/
def firstNeighbor? (source : ρ) : Option { found // LeadsTo source found } :=
  -- Nothing is known of a loop that does not end, so what is found comes with its proof.
  Id.run (repeatM (fun skipped => pure (searchStep source skipped)) ⟨source, id⟩)

/-- A direction to any of the eight neighbors, if there is ever one. -/
def neighborDirection : StateM ρ (Option Vec) := fun source =>
  match firstNeighbor? source with
  | some ⟨(offset, source), _⟩ => (some offset, source)
  | none => (none, source)

variable [Board β]

/-- The cells of two positions change places. -/
def swap (p q : Vec) : Action β ρ Unit := do
  let first ← read p
  let second ← read q
  write q first
  write p second

/-- The direction of a movement, unless the cell stays. A cell that slides aside
needs something below it to slide off. -/
def direction (world : World) (movement : Movement) (target : Vec) :
    Action β ρ (Option Vec) :=
  match movement with
  | .fall => return some ⟨0, 1⟩
  | .sandLike => do
    let x ← draw (between (-1) 1)
    let below := target + ⟨0, 1⟩
    if x = 0 then return some ⟨x, 1⟩
    else if !(← inGrid below) then return none
    else if (← read below).atom = world.empty then return none
    else return some ⟨x, 1⟩
  | .randomMove => do
    match ← draw neighborDirection with
    | some offset => return some offset
    | none => throw .noDirection

/-- Lets the cell at a target move as its type says, and tells whether it did. -/
def move (world : World) (owner : AtomType) (extension : Extension) (target : Vec) :
    Action β ρ Bool := do
  let wanted ← match extension.probability with
    | some p => draw (chance p)
    | none => pure true
  if !wanted then return false
  match ← direction world extension.movement target with
  | none => return false
  | some offset =>
    let neighbor := target + offset
    if !(← inGrid neighbor) then return false
    else if !world.accepts owner extension.replaceable (← read neighbor).atom then return false
    else
      swap target neighbor
      return true

end FallingSand.Engine
