import FallingSand.Proofs.Engine.LinkedRules
import FallingSand.Proofs.Random.Draw

/-!
# Ticks on tied boards

A tick looks at its target, draws, and hands over to rules and movements. So it
ends alike on tied boards once these do. On linked boards a movement ends alike
if the neighbors of its target meet, and that leaves the rules alone to be looked
at.
-/

namespace FallingSand.Engine

open FallingSand.Random (WordSource)

variable {β γ ρ : Type} [Board β] [Board γ] [WordSource ρ] {world : World} {target : Vec}

/-! ## Rules -/

section Rules

variable {T : Tie β γ} {owner : AtomType}

theorem coupled_attempt {rule : Rule}
    (apply : ∀ o, Coupled T Eq (applyRule world owner rule target o : Action β ρ Bool)
      (applyRule world owner rule target o)) :
    Coupled T Eq (attempt world owner rule target : Action β ρ Attempt)
      (attempt world owner rule target) := by
  unfold attempt
  refine (Coupled.draw_eq _).bind ?_
  rintro wanted _ rfl
  cases wanted with
  | false => exact Coupled.pure rfl
  | true =>
    refine (Coupled.draw_eq _).bind ?_
    rintro o _ rfl
    refine (apply o).bind ?_
    rintro applied _ rfl
    cases applied <;> exact Coupled.pure rfl

variable {rules : List Rule}
  (apply : ∀ rule ∈ rules, ∀ o,
    Coupled T Eq (applyRule world owner rule target o : Action β ρ Bool)
      (applyRule world owner rule target o))

include apply

theorem coupled_tryAll (outcome : Outcome) :
    Coupled T Eq (tryAll world owner target outcome rules : Action β ρ Outcome)
      (tryAll world owner target outcome rules) := by
  induction rules generalizing outcome with
  | nil => exact Coupled.pure rfl
  | cons rule rest ih =>
    have tail := ih fun r hr => apply r (List.mem_cons_of_mem _ hr)
    unfold tryAll
    refine (coupled_attempt (apply rule List.mem_cons_self)).bind ?_
    rintro came _ rfl
    cases came with
    | failed => exact tail outcome
    | applied shift => exact tail _

theorem coupled_tryUntil (outcome : Outcome) :
    Coupled T Eq (tryUntil world owner target outcome rules : Action β ρ Outcome)
      (tryUntil world owner target outcome rules) := by
  induction rules generalizing outcome with
  | nil => exact Coupled.pure rfl
  | cons rule rest ih =>
    have tail := ih fun r hr => apply r (List.mem_cons_of_mem _ hr)
    unfold tryUntil
    refine (coupled_attempt (apply rule List.mem_cons_self)).bind ?_
    rintro came _ rfl
    cases came with
    | failed => exact tail outcome
    | applied shift =>
      dsimp only
      split
      · exact tail _
      · exact Coupled.pure rfl

end Rules

/-! ## Movements -/

/-- What a movement does once it is wanted. -/
def hop {β : Type} [Board β] (world : World) (owner : AtomType) (extension : Extension)
    (target : Vec) : Action β ρ Bool := do
  match ← direction world extension.movement target with
  | none => return false
  | some offset =>
    let neighbor := target + offset
    if !(← inGrid neighbor) then return false
    else if !world.accepts owner extension.replaceable (← read neighbor).atom then return false
    else
      swap target neighbor
      return true

theorem move_eq {β : Type} [Board β] (owner : AtomType) (extension : Extension) :
    (move world owner extension target : Action β ρ Bool) =
      match extension.probability with
      | some p => draw (Random.chance p) >>= fun wanted =>
        if wanted then hop world owner extension target else pure false
      | none => hop world owner extension target := by
  unfold move
  cases extension.probability with
  | none => rfl
  | some p =>
    refine congrArg (draw (Random.chance p) >>= ·) (funext ?_)
    intro wanted
    cases wanted <;> rfl

/-- What movements from a target need of a tie. -/
structure Moves (ρ : Type) (T : Tie β γ) (size target : Vec) : Prop where
  within : ∀ d, IsUnit d →
    Coupled T (fun x y => x = y ∧ x = (target + d).inBounds size)
      (inGrid (target + d) : Action β ρ Bool) (inGrid (target + d))
  reads : ∀ d, IsUnit d → (target + d).inBounds size = true →
    Coupled T Eq (read (target + d) : Action β ρ Cell) (read (target + d))
  swaps : ∀ d, IsUnit d → (target + d).inBounds size = true →
    Coupled T Eq (swap target (target + d) : Action β ρ Unit) (swap target (target + d))
  stuck : ∀ b c, T.boards b c → T.faults .noDirection b .noDirection c

section Movements

variable {T : Tie β γ} {size : Vec} (moves : Moves ρ T size target)

include moves

theorem coupled_direction (movement : Movement) :
    Coupled T (fun x y => x = y ∧ ∀ d, x = some d → IsUnit d)
      (direction world movement target : Action β ρ (Option Vec))
      (direction world movement target) := by
  have down : IsUnit ⟨0, 1⟩ := by unfold IsUnit; decide
  unfold direction
  cases movement with
  | fall =>
    refine Coupled.pure ⟨rfl, ?_⟩
    intro d h
    cases h
    exact down
  | sandLike =>
    refine (Coupled.draw Random.between_unit).bind ?_
    rintro x _ ⟨rfl, hx⟩
    have aside : ∀ d, some (⟨x, 1⟩ : Vec) = some d → IsUnit d := by
      intro d h
      cases h
      exact ⟨hx, down.2⟩
    dsimp only
    split
    · exact Coupled.pure ⟨rfl, aside⟩
    · refine (moves.within _ down).bind ?_
      rintro inside _ ⟨rfl, hinside⟩
      cases inside with
      | false => exact Coupled.pure ⟨rfl, fun d h => by cases h⟩
      | true =>
        refine (moves.reads _ down hinside.symm).bind ?_
        rintro cell _ rfl
        split
        · exact Coupled.pure ⟨rfl, fun d h => by cases h⟩
        · exact Coupled.pure ⟨rfl, aside⟩
  | randomMove =>
    refine (Coupled.draw neighborDirection_moves).bind ?_
    rintro found _ ⟨rfl, hfound⟩
    cases found with
    | some d => exact Coupled.pure ⟨rfl, fun d h => (hfound d h).1⟩
    | none => exact Coupled.throw moves.stuck

theorem coupled_hop (owner : AtomType) (extension : Extension) :
    Coupled T Eq (hop world owner extension target : Action β ρ Bool)
      (hop world owner extension target) := by
  unfold hop
  refine (coupled_direction moves _).bind ?_
  rintro found _ ⟨rfl, hfound⟩
  cases found with
  | none => exact Coupled.pure rfl
  | some d =>
    have unit := hfound d rfl
    refine (moves.within d unit).bind ?_
    rintro inside _ ⟨rfl, hinside⟩
    cases inside with
    | false => exact Coupled.pure rfl
    | true =>
      refine (moves.reads d unit hinside.symm).bind ?_
      rintro cell _ rfl
      split
      · exact Coupled.pure rfl
      · exact (moves.swaps d unit hinside.symm).bind fun _ _ _ => Coupled.pure rfl

theorem coupled_move (owner : AtomType) (extension : Extension) :
    Coupled T Eq (move world owner extension target : Action β ρ Bool)
      (move world owner extension target) := by
  rw [move_eq, move_eq]
  cases extension.probability with
  | none => exact coupled_hop moves owner extension
  | some p =>
    refine (Coupled.draw_eq _).bind ?_
    rintro wanted _ rfl
    cases wanted with
    | false => exact Coupled.pure rfl
    | true => exact coupled_hop moves owner extension

theorem coupled_moveOnce (owner : AtomType) (outcome : Outcome) :
    Coupled T Eq (moveOnce world owner target outcome : Action β ρ Outcome)
      (moveOnce world owner target outcome) := by
  unfold moveOnce
  refine (Coupled.draw_eq _).bind ?_
  rintro n _ rfl
  cases owner.extensions[n]? with
  | none => exact Coupled.pure rfl
  | some extension =>
    refine (coupled_move moves owner extension).bind ?_
    rintro moved _ rfl
    cases moved <;> exact Coupled.pure rfl

end Movements

/-! ## Ticks -/

/-- A tick ends alike on tied boards if the rules of the cell at the target do. -/
theorem coupled_tick {T : Tie β γ} {size : Vec}
    (within : Coupled T (fun x y => x = y ∧ x = target.inBounds size)
      (inGrid target : Action β ρ Bool) (inGrid target))
    (reads : target.inBounds size = true →
      Coupled T Eq (read target : Action β ρ Cell) (read target))
    (moves : target.inBounds size = true → Moves ρ T size target)
    (apply : target.inBounds size = true → ∀ id, ∀ rule ∈ (world.atom id).allRules, ∀ o,
      Coupled T Eq (applyRule world (world.atom id) rule target o : Action β ρ Bool)
        (applyRule world (world.atom id) rule target o)) :
    Coupled T Eq (tick world target : Action β ρ Outcome) (tick world target) := by
  unfold tick
  refine within.bind ?_
  rintro inside _ ⟨rfl, hinside⟩
  cases inside with
  | false => exact Coupled.pure rfl
  | true =>
    refine (reads hinside.symm).bind ?_
    rintro cell _ rfl
    have rules := apply hinside.symm cell.atom
    refine (Coupled.draw (Random.shuffle_perm _)).bind ?_
    rintro always _ ⟨rfl, alwaysPerm⟩
    -- A shuffled list has no other rules than the type has.
    refine (coupled_tryAll (fun rule hr => rules rule ?_) {}).bind ?_
    · exact List.mem_append_left _ (alwaysPerm.toList.mem_iff.mp hr)
    rintro outcome _ rfl
    dsimp only
    split
    · exact Coupled.pure rfl
    · refine (Coupled.draw_eq _).bind ?_
      rintro n _ rfl
      split
      · refine (Coupled.draw (Random.shuffle_perm _)).bind ?_
        rintro chosen _ ⟨rfl, chosenPerm⟩
        refine coupled_tryUntil (fun rule hr => rules rule ?_) outcome
        exact List.mem_append_right _ (chosenPerm.toList.mem_iff.mp hr)
      · exact coupled_moveOnce (moves hinside.symm) _ _

namespace Bridge

variable (L : Bridge world β γ)

omit [WordSource ρ] in
theorem moves_of_meets (inside : target.inBounds L.size = true) (here : L.meets target target)
    (near : ∀ d, IsUnit d → L.meets (target + d) (target + d)) :
    Moves ρ L.toTie L.size target where
  within d unit := L.coupled_inGrid (near d unit)
  reads d unit there := (L.coupled_read (near d unit) there).mono fun _ _ h => h.1
  swaps d unit there := by
    unfold swap
    refine (L.coupled_read here inside).bind ?_
    rintro first _ ⟨rfl, goodFirst⟩
    refine (L.coupled_read (near d unit) there).bind ?_
    rintro second _ ⟨rfl, goodSecond⟩
    refine (L.coupled_write (near d unit) there goodFirst).bind ?_
    intro _ _ _
    exact L.coupled_write here inside goodSecond
  stuck _ _ boards := L.faults_of_allowed L.allowed_direction boards

/-- A tick does the same to linked boards if the rules of the cell at the target do. -/
theorem coupled_tick (here : L.meets target target)
    (near : target.inBounds L.size = true → ∀ d, IsUnit d → L.meets (target + d) (target + d))
    (apply : target.inBounds L.size = true → ∀ id, ∀ rule ∈ (world.atom id).allRules, ∀ o,
      Coupled L.toTie Eq (applyRule world (world.atom id) rule target o : Action β ρ Bool)
        (applyRule world (world.atom id) rule target o)) :
    Coupled L.toTie Eq (tick world target : Action β ρ Outcome) (tick world target) :=
  Engine.coupled_tick (L.coupled_inGrid here)
    (fun inside => (L.coupled_read here inside).mono fun _ _ h => h.1)
    (fun inside => L.moves_of_meets inside here (near inside)) apply

end Bridge

end FallingSand.Engine
