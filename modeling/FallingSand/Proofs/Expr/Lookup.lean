import FallingSand.Expr.Basic

/-!
# What evaluation depends on

The value of an expression depends on what its slots find and on the words that
it draws, and on nothing else. It fails only where a slot finds nothing to go
on with, or in the formula itself.
-/

namespace FallingSand.Expr

open FallingSand.Random (WordSource)

theorem slotValues_congr (source : List Char) {lookup other : String → Vec → Lookup}
    {slots : List Slot} (same : ∀ slot ∈ slots,
      lookup slot.name slot.offset = other slot.name slot.offset) :
    slotValues source lookup slots = slotValues source other slots := by
  induction slots with
  | nil => rfl
  | cons slot rest ih =>
    have tail := ih fun s hs => same s (List.mem_cons_of_mem _ hs)
    unfold slotValues
    rw [same slot List.mem_cons_self, tail]

/-- Evaluation sees a board through the slots only. -/
theorem eval_congr {ρ : Type} [WordSource ρ] (e : Expr)
    {lookup other : String → Vec → Lookup} (same : ∀ slot ∈ e.slots,
      lookup slot.name slot.offset = other slot.name slot.offset) :
    (e.eval lookup : StateM ρ _) = e.eval other := by
  unfold eval
  rw [slotValues_congr e.source same]

/-- Whether an expression reads the cell at its anchor and no other. -/
def ReadsSelf (e : Expr) : Prop := ∀ slot ∈ e.slots, slot.offset = Vec.zero

/-- The errors that come from a slot. -/
def SlotError (lookup : String → Vec → Lookup) (source : List Char) (slots : List Slot)
    (error : EvalError) : Prop :=
  ∃ slot ∈ slots,
    (lookup slot.name slot.offset = .missing ∧ error = .missingProperty slot.name source) ∨
    (lookup slot.name slot.offset = .inaccessible ∧ error = .inaccessible slot.offset source)

theorem SlotError.cons {lookup : String → Vec → Lookup} {source : List Char} {slot : Slot}
    {rest : List Slot} {error : EvalError} (h : SlotError lookup source rest error) :
    SlotError lookup source (slot :: rest) error := by
  obtain ⟨found, member, reason⟩ := h
  exact ⟨found, List.mem_cons_of_mem _ member, reason⟩

theorem slotError_of_slotValues {source : List Char} {lookup : String → Vec → Lookup}
    {slots : List Slot} {error : EvalError}
    (h : slotValues source lookup slots = .error error) :
    SlotError lookup source slots error := by
  induction slots with
  | nil => cases h
  | cons slot rest ih =>
    unfold slotValues at h
    cases found : lookup slot.name slot.offset with
    | value x =>
      rw [found] at h
      cases tail : slotValues source lookup rest with
      | ok values =>
        rw [tail] at h
        cases h
      | error e =>
        rw [tail] at h
        cases h
        exact (ih tail).cons
    | outOfGrid =>
      rw [found] at h
      cases h
    | missing =>
      rw [found] at h
      cases h
      exact ⟨slot, List.mem_cons_self, .inl ⟨found, rfl⟩⟩
    | inaccessible =>
      rw [found] at h
      cases h
      exact ⟨slot, List.mem_cons_self, .inr ⟨found, rfl⟩⟩

variable {ρ : Type} [WordSource ρ]

/-- The draws of an expression, one for each range. -/
def draws (e : Expr) : StateM ρ (List Float) := e.randoms.mapM fun (_, range) => range.sample

/-- One number is drawn from each range. -/
theorem length_draws (e : Expr) (source : ρ) :
    (e.draws.run source).1.length = e.randoms.length := by
  unfold draws
  induction e.randoms generalizing source with
  | nil => rfl
  | cons token rest ih =>
    rw [List.mapM_cons]
    exact congrArg (· + 1) (ih _)

/-- What happens once all slots have values. -/
theorem eval_of_values {e : Expr} {lookup : String → Vec → Lookup} {values : List Float}
    (h : slotValues e.source lookup e.slots = .ok (some values)) (source : ρ) :
    (e.eval lookup).run source =
      (match e.code.eval (environment values (e.draws.run source).1) with
        | .ok x => .ok (some x)
        | .error fault => .error (.formula e.source fault), (e.draws.run source).2) := by
  unfold eval
  rw [h]
  show StateT.run (match e.code.eval (environment values (e.draws.run source).1) with
    | .ok x => pure (Except.ok (some x))
    | .error fault => pure (Except.error (EvalError.formula e.source fault)))
      (e.draws.run source).2 = _
  cases e.code.eval (environment values (e.draws.run source).1) <;> rfl

theorem draws_of_no_randoms {e : Expr} (drawless : e.randoms = []) (source : ρ) :
    e.draws.run source = ([], source) := by
  unfold draws
  rw [drawless]
  rfl

/-- Without ranges an expression draws nothing. -/
theorem eval_of_no_randoms {e : Expr} (drawless : e.randoms = [])
    (lookup : String → Vec → Lookup) :
    ∃ result, ∀ source : ρ, (e.eval lookup).run source = (result, source) := by
  cases slots : slotValues e.source lookup e.slots with
  | error error =>
    refine ⟨.error error, ?_⟩
    intro source
    unfold eval
    rw [slots]
    rfl
  | ok found =>
    cases found with
    | none =>
      refine ⟨.ok none, ?_⟩
      intro source
      unfold eval
      rw [slots]
      rfl
    | some values =>
      refine ⟨match e.code.eval (environment values []) with
        | .ok x => .ok (some x)
        | .error fault => .error (.formula e.source fault), ?_⟩
      intro source
      rw [eval_of_values slots, draws_of_no_randoms drawless]

/-- Slots have values, or an error comes up, unless one of them lies outside the grid. -/
theorem slotValues_ne_none {source : List Char} {lookup : String → Vec → Lookup}
    {slots : List Slot} (within : ∀ slot ∈ slots, lookup slot.name slot.offset ≠ .outOfGrid) :
    slotValues source lookup slots ≠ .ok none := by
  induction slots with
  | nil => exact nofun
  | cons slot rest ih =>
    have tail := ih fun s hs => within s (List.mem_cons_of_mem _ hs)
    unfold slotValues
    cases found : lookup slot.name slot.offset with
    | value x =>
      cases values : slotValues source lookup rest with
      | error error => exact nofun
      | ok others =>
        cases others with
        | none => exact absurd values tail
        | some list => exact nofun
    | outOfGrid => exact absurd found (within slot List.mem_cons_self)
    | missing => exact nofun
    | inaccessible => exact nofun

/-- An evaluation that stays in the grid has a value, if it does not fail. -/
theorem eval_ne_none {e : Expr} {lookup : String → Vec → Lookup}
    (within : ∀ slot ∈ e.slots, lookup slot.name slot.offset ≠ .outOfGrid) (source : ρ) :
    ((e.eval lookup).run source).1 ≠ .ok none := by
  cases slots : slotValues e.source lookup e.slots with
  | error error =>
    unfold eval
    rw [slots]
    exact nofun
  | ok found =>
    cases found with
    | none => exact absurd slots (slotValues_ne_none within)
    | some values =>
      rw [eval_of_values slots]
      cases e.code.eval (environment values (e.draws.run source).1) with
      | ok x => exact nofun
      | error fault => exact nofun

/-- An error of an evaluation comes from a slot or from the formula. -/
theorem eval_error {e : Expr} {lookup : String → Vec → Lookup} {source : ρ}
    {error : EvalError} (h : ((e.eval lookup).run source).1 = .error error) :
    SlotError lookup e.source e.slots error ∨ ∃ fault, error = .formula e.source fault := by
  -- The formula is only evaluated once every slot has a value.
  cases slots : slotValues e.source lookup e.slots with
  | error reason =>
    unfold eval at h
    rw [slots] at h
    cases h
    exact .inl (slotError_of_slotValues slots)
  | ok found =>
    cases found with
    | none =>
      unfold eval at h
      rw [slots] at h
      cases h
    | some values =>
      rw [eval_of_values slots] at h
      cases result : e.code.eval (environment values (e.draws.run source).1) with
      | ok x =>
        rw [result] at h
        cases h
      | error fault =>
        rw [result] at h
        cases h
        exact .inr ⟨fault, rfl⟩

end FallingSand.Expr
