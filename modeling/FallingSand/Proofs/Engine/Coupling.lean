import FallingSand.Engine.Action
import FallingSand.Proofs.Random.Draw
import Mathlib.Data.List.Forall2

/-!
# Two runs side by side

Many laws of the engine compare two runs: one on a region and one on the whole
grid, one on a grid and one on its mirror image, or one run with itself. A `Tie`
says how the two boards correspond and how the runs may fail together.
`Coupled T P m n` says that `m` and `n`, run on corresponding boards with the
same random words, end alike: with results that `P` relates and boards that
still correspond, or with errors that the tie admits, and in both cases with the
same words left. An invariant of single runs is the case of two equal runs.

The rules below follow the ways in which actions are put together. Loops go
through two lists in step.
-/

namespace FallingSand.Engine

open FallingSand.Random (WordSource)

variable {β γ ρ α α' δ δ' : Type}

/-! ## What an action does -/

/-- What an action does from a state. -/
def exec (m : Action β ρ α) (s : State β ρ) : Except Error α × State β ρ := m.run.run s

@[simp] theorem exec_pure (x : α) (s : State β ρ) :
    exec (pure x : Action β ρ α) s = (.ok x, s) := rfl

@[simp] theorem exec_throw (e : Error) (s : State β ρ) :
    exec (throw e : Action β ρ α) s = (.error e, s) := rfl

theorem exec_get (s : State β ρ) :
    exec (get : Action β ρ (State β ρ)) s = (.ok s, s) := rfl

theorem exec_bind (m : Action β ρ α) (f : α → Action β ρ δ) (s : State β ρ) :
    exec (m >>= f) s = match exec m s with
      | (.ok x, s') => exec (f x) s'
      | (.error e, s') => (.error e, s') := by
  cases h : exec m s with
  | mk result s' =>
    unfold exec at h ⊢
    rw [ExceptT.run_bind, StateT.run_bind, h]
    cases result <;> rfl

/-- Two actions that succeed do so one after the other. -/
theorem exec_bind_ok {m : Action β ρ α} {f : α → Action β ρ δ} {s after : State β ρ} {y : δ}
    (h : exec (m >>= f) s = (.ok y, after)) :
    ∃ x between, exec m s = (.ok x, between) ∧ exec (f x) between = (.ok y, after) := by
  rw [exec_bind] at h
  cases first : exec m s with
  | mk result between =>
    rw [first] at h
    cases result with
    | error e => cases h
    | ok x => exact ⟨x, between, rfl, h⟩

/-- An action whose result is not used. -/
theorem exec_discard {m : Action β ρ α} {s after : State β ρ}
    (h : exec (do let _ ← m) s = (.ok (), after)) : ∃ x, exec m s = (.ok x, after) := by
  obtain ⟨x, between, first, rest⟩ := exec_bind_ok h
  cases rest
  exact ⟨x, first⟩

theorem exec_get_bind (f : State β ρ → Action β ρ δ) (s : State β ρ) :
    exec (get >>= f) s = exec (f s) s := by
  rw [exec_bind, exec_get]

theorem exec_draw (d : StateM ρ α) (s : State β ρ) :
    exec (draw d : Action β ρ α) s =
      (.ok (d.run s.source).1, ⟨s.board, (d.run s.source).2⟩) := rfl

theorem exec_draw_ok {d : StateM ρ α} {x : α} {s after : State β ρ}
    (h : exec (draw d) s = (.ok x, after)) :
    (d.run s.source).1 = x ∧ after.board = s.board := by
  rw [exec_draw] at h
  obtain ⟨result, rfl⟩ := Prod.mk.inj h
  exact ⟨Except.ok.inj result, rfl⟩

section Board

variable [Board β]

theorem exec_inGrid (p : Vec) (s : State β ρ) :
    exec (inGrid p : Action β ρ Bool) s = (.ok (Board.inGrid s.board p), s) := rfl

theorem exec_read (p : Vec) (s : State β ρ) :
    exec (read p : Action β ρ Cell) s = (match Board.cell? s.board p with
      | some cell => .ok cell
      | none => .error (.unlocked p), s) := by
  unfold read
  rw [exec_bind]
  show exec (match Board.cell? s.board p with
    | some cell => pure cell
    | none => throw (.unlocked p)) s = _
  cases Board.cell? s.board p <;> rfl

theorem exec_read_of_cell? {p : Vec} {cell : Cell} {s : State β ρ}
    (found : Board.cell? s.board p = some cell) :
    exec (read p : Action β ρ Cell) s = (.ok cell, s) := by
  rw [exec_read, found]

/-- Only what is there can be looked at. -/
theorem exec_read_ok {p : Vec} {cell : Cell} {s after : State β ρ}
    (h : exec (read p) s = (.ok cell, after)) : Board.cell? s.board p = some cell ∧ after = s := by
  rw [exec_read] at h
  cases found : Board.cell? s.board p with
  | none =>
    rw [found] at h
    cases h
  | some other =>
    rw [found] at h
    cases h
    exact ⟨rfl, rfl⟩

theorem exec_write (p : Vec) (cell : Cell) (s : State β ρ) :
    exec (write p cell : Action β ρ Unit) s = match Board.cell? s.board p with
      | some _ => (.ok (), ⟨Board.write s.board p cell, s.source⟩)
      | none => (.error (.unlocked p), s) := by
  unfold write
  rw [exec_bind, exec_read]
  cases Board.cell? s.board p <;> rfl

theorem exec_evaluate [WordSource ρ] (world : World) (e : Expr) (anchor : Vec)
    (o : Orientation) (s : State β ρ) :
    exec (evaluate world e anchor o : Action β ρ (Option Float)) s =
      (((e.eval (look world s.board anchor o)).run s.source).1.mapError .eval,
        ⟨s.board, ((e.eval (look world s.board anchor o)).run s.source).2⟩) := by
  unfold evaluate
  rw [exec_get_bind, exec_bind, exec_draw]
  dsimp only
  cases ((e.eval (look world s.board anchor o)).run s.source).1 <;> rfl

end Board

/-! ## Ties -/

/-- How two boards correspond, and how runs on them may fail together. -/
structure Tie (β γ : Type) where
  boards : β → γ → Prop
  faults : Error → β → Error → γ → Prop

/-- How two runs may end under a tie if `P` is to relate their results. -/
inductive Tie.Ends (T : Tie β γ) (P : α → α' → Prop) :
    Except Error α × State β ρ → Except Error α' × State γ ρ → Prop
  | result {x y b c source} : P x y → T.boards b c →
      T.Ends P (.ok x, ⟨b, source⟩) (.ok y, ⟨c, source⟩)
  | fault {e f b c source} : T.faults e b f c →
      T.Ends P (.error e, ⟨b, source⟩) (.error f, ⟨c, source⟩)

/-- Two actions that end alike whenever they start alike. -/
def Coupled (T : Tie β γ) (P : α → α' → Prop) (m : Action β ρ α) (n : Action γ ρ α') : Prop :=
  ∀ b c source, T.boards b c → T.Ends P (exec m ⟨b, source⟩) (exec n ⟨c, source⟩)

namespace Coupled

variable {T : Tie β γ} {P : α → α' → Prop} {Q : δ → δ' → Prop}

theorem pure {x : α} {y : α'} (h : P x y) :
    Coupled T P (Pure.pure x : Action β ρ α) (Pure.pure y) :=
  fun _ _ _ boards => .result h boards

theorem throw {e f : Error} (h : ∀ b c, T.boards b c → T.faults e b f c) :
    Coupled T P (MonadExcept.throw e : Action β ρ α) (MonadExcept.throw f) :=
  fun b c _ boards => .fault (h b c boards)

/-- One action after the other. -/
theorem bind {m : Action β ρ α} {n : Action γ ρ α'} {f : α → Action β ρ δ}
    {g : α' → Action γ ρ δ'} (first : Coupled T P m n)
    (next : ∀ x y, P x y → Coupled T Q (f x) (g y)) : Coupled T Q (m >>= f) (n >>= g) := by
  intro b c source boards
  rw [exec_bind, exec_bind]
  have ends := first b c source boards
  revert ends
  generalize exec m ⟨b, source⟩ = left
  generalize exec n ⟨c, source⟩ = right
  intro ends
  cases ends with
  | result related boards' => exact next _ _ related _ _ _ boards'
  | fault faults => exact .fault faults

theorem mono {m : Action β ρ α} {n : Action γ ρ α'} {P' : α → α' → Prop}
    (h : Coupled T P m n) (imp : ∀ x y, P x y → P' x y) : Coupled T P' m n := by
  intro b c source boards
  have ends := h b c source boards
  revert ends
  generalize exec m ⟨b, source⟩ = left
  generalize exec n ⟨c, source⟩ = right
  intro ends
  cases ends with
  | result related boards' => exact .result (imp _ _ related) boards'
  | fault faults => exact .fault faults

/-- Both runs draw the same. -/
theorem draw {d : StateM ρ α} {R : α → Prop} (h : Random.Draws d R) :
    Coupled T (fun x y => x = y ∧ R x) (Engine.draw d : Action β ρ α) (Engine.draw d) :=
  fun _ _ source boards => .result ⟨rfl, h source⟩ boards

theorem draw_eq (d : StateM ρ α) :
    Coupled T Eq (Engine.draw d : Action β ρ α) (Engine.draw d) :=
  fun _ _ _ boards => .result rfl boards

/-! ## Loops -/

variable {ι ι' : Type} {R : ι → ι' → Prop}

theorem forM {f : ι → Action β ρ Unit} {g : ι' → Action γ ρ Unit} {l : List ι} {l' : List ι'}
    (lists : List.Forall₂ R l l') (each : ∀ x y, R x y → Coupled T Eq (f x) (g y)) :
    Coupled T Eq (l.forM f) (l'.forM g) := by
  induction lists with
  | nil => exact Coupled.pure rfl
  | cons head _ ih => exact (each _ _ head).bind fun _ _ _ => ih

theorem allM {f : ι → Action β ρ Bool} {g : ι' → Action γ ρ Bool} {l : List ι} {l' : List ι'}
    (lists : List.Forall₂ R l l') (each : ∀ x y, R x y → Coupled T Eq (f x) (g y)) :
    Coupled T Eq (l.allM f) (l'.allM g) := by
  induction lists with
  | nil => exact Coupled.pure rfl
  | cons head _ ih =>
    refine (each _ _ head).bind ?_
    intro x y same
    subst same
    cases x with
    | true => exact ih
    | false => exact Coupled.pure rfl

theorem foldlM {f : α → ι → Action β ρ α} {g : α' → ι' → Action γ ρ α'} {l : List ι}
    {l' : List ι'} (lists : List.Forall₂ R l l')
    (each : ∀ a b x y, P a b → R x y → Coupled T P (f a x) (g b y)) {a : α} {b : α'}
    (start : P a b) : Coupled T P (l.foldlM f a) (l'.foldlM g b) := by
  induction lists generalizing a b with
  | nil => exact Coupled.pure start
  | cons head _ ih =>
    rw [List.foldlM_cons, List.foldlM_cons]
    exact (each _ _ _ _ start head).bind fun _ _ related => ih related

end Coupled

end FallingSand.Engine
