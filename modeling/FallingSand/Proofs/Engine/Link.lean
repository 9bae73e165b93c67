import FallingSand.Engine.Tick
import FallingSand.Proofs.Engine.Coupling
import FallingSand.Proofs.Engine.Orientation
import FallingSand.Proofs.Expr.Lookup

/-!
# Links between boards

A bridge is a tie that the four things an action can do respect: positions of the
one board meet positions of the other, where they meet the cells are equal, and
equal writes keep the boards tied. Cells may be required to be good in some
sense, and the errors of a run to be among those that are allowed. A link is a
bridge for which new cells are good before their properties are worked out.

Whatever the engine does to linked boards at positions that meet, it does to
both alike. So a law about two boards needs no more than a link and a proof that
the positions meet that a rule looks at. For a bridge it takes in addition that
cells can change their types.
-/

namespace FallingSand.Engine

open FallingSand.Random (WordSource)

/-- Cells that are good in a sense have the property of a name, or else it is allowed
that it is missing. -/
def Knows (world : World) (good : Cell → Prop) (allowed : Error → Prop) (name : String) : Prop :=
  ∀ cell source, good cell → world.resolve? cell.properties cell.atom name = none →
    allowed (.eval (.missingProperty name source))

/-- What is asked of the cells of a board in a world, and which errors may then still
come up. -/
structure Criterion (world : World) where
  good : Cell → Prop
  allowed : Error → Prop
  good_set : ∀ {cell} name x, good cell → good (cell.set name x)
  allowed_formula : ∀ source fault, allowed (.eval (.formula source fault))
  allowed_direction : allowed .noDirection

/-- A criterion that new cells meet from the start. -/
structure Standard (world : World) extends Criterion world where
  good_new : ∀ id, good (world.atom id).newCell
  /-- A new cell is worked out from itself. -/
  initial : ∀ id, ∀ entry ∈ (world.atom id).init, ∀ slot ∈ entry.2.slots,
    slot.offset = Vec.zero ∧ Knows world good allowed slot.name

/-- A tie of boards with positions that meet. -/
structure Bridge (world : World) (β γ : Type) [Board β] [Board γ] extends
    Tie β γ, Criterion world where
  /-- The size of both boards. -/
  size : Vec
  /-- The positions of the first board that meet positions of the second. -/
  meets : Vec → Vec → Prop
  size_left : ∀ {b c}, boards b c → Board.size b = size
  size_right : ∀ {b c}, boards b c → Board.size c = size
  inBounds_eq : ∀ {p q}, meets p q → p.inBounds size = q.inBounds size
  cells : ∀ {b c p q}, boards b c → meets p q → p.inBounds size = true →
    ∃ cell, Board.cell? b p = some cell ∧ Board.cell? c q = some cell ∧ good cell
  writes : ∀ {b c p q cell}, boards b c → meets p q → p.inBounds size = true → good cell →
    boards (Board.write b p cell) (Board.write c q cell)
  faults_of_allowed : ∀ {e b c}, allowed e → boards b c → faults e b e c

/-- A bridge for which new cells are good. -/
structure Link (world : World) (β γ : Type) [Board β] [Board γ] extends
    Bridge world β γ, Standard world

variable {β γ ρ : Type} [Board β] [Board γ] {world : World}

namespace Bridge

variable (L : Bridge world β γ)

theorem inGrid_left {b : β} {c : γ} (boards : L.boards b c) (p : Vec) :
    Board.inGrid b p = p.inBounds L.size := by
  rw [Board.inGrid, L.size_left boards]

theorem inGrid_right {b : β} {c : γ} (boards : L.boards b c) (p : Vec) :
    Board.inGrid c p = p.inBounds L.size := by
  rw [Board.inGrid, L.size_right boards]

/-! ## Reading and writing -/

section Cells

variable {p q : Vec} (meets : L.meets p q)

include meets

theorem coupled_inGrid :
    Coupled L.toTie (fun x y => x = y ∧ x = p.inBounds L.size)
      (inGrid p : Action β ρ Bool) (inGrid q) := by
  intro b c source boards
  rw [exec_inGrid, exec_inGrid, L.inGrid_left boards, L.inGrid_right boards,
    ← L.inBounds_eq meets]
  exact .result ⟨rfl, rfl⟩ boards

variable (inside : p.inBounds L.size = true)

include inside

theorem coupled_read :
    Coupled L.toTie (fun x y => x = y ∧ L.good x) (read p : Action β ρ Cell) (read q) := by
  intro b c source boards
  obtain ⟨cell, left, right, good⟩ := L.cells boards meets inside
  rw [exec_read, exec_read, left, right]
  exact .result ⟨rfl, good⟩ boards

theorem coupled_write {cell : Cell} (good : L.good cell) :
    Coupled L.toTie Eq (write p cell : Action β ρ Unit) (write q cell) := by
  intro b c source boards
  obtain ⟨old, left, right, -⟩ := L.cells boards meets inside
  rw [exec_write, exec_write, left, right]
  exact .result rfl (L.writes boards meets inside good)

end Cells

theorem coupled_change {p q : Vec} (meets : L.meets p q) (name : String) (kind : Update)
    (value : Float32) :
    Coupled L.toTie Eq (change world p name kind value : Action β ρ Unit)
      (change world q name kind value) := by
  unfold change
  refine (L.coupled_inGrid meets).bind ?_
  rintro x _ ⟨rfl, hx⟩
  cases inside : x with
  | false => exact Coupled.pure rfl
  | true =>
    rw [inside] at hx
    refine (L.coupled_read meets hx.symm).bind ?_
    rintro cell _ ⟨rfl, good⟩
    dsimp only
    cases kind.next? ((world.resolve? cell.properties cell.atom name).getD 0.0) value with
    | some next => exact L.coupled_write meets hx.symm (L.good_set name next good)
    | none => exact Coupled.pure rfl

/-! ## Expressions -/

/-- The positions at which an expression reads meet. -/
def Covers (e : Expr) (a b : Vec) (o o' : Orientation) : Prop :=
  ∀ slot ∈ e.slots, L.meets (a + o.apply slot.offset) (b + o'.apply slot.offset) ∧
    Knows world L.good L.allowed slot.name

variable [WordSource ρ] {e : Expr} {a a' : Vec} {o o' : Orientation}

theorem look_eq {b : β} {c : γ} (boards : L.boards b c) (name : String) {offset : Vec}
    (meets : L.meets (a + o.apply offset) (a' + o'.apply offset)) :
    look world b a o name offset = look world c a' o' name offset := by
  unfold look
  dsimp only
  rw [L.inGrid_left boards, L.inGrid_right boards, ← L.inBounds_eq meets]
  cases inside : (a + o.apply offset).inBounds L.size with
  | false => rfl
  | true =>
    obtain ⟨cell, left, right, -⟩ := L.cells boards meets inside
    rw [left, right]

/-- What an expression fails with is allowed. -/
theorem allowed_of_eval {b : β} {c : γ} (boards : L.boards b c) (covers : L.Covers e a a' o o')
    {source : ρ} {error : Expr.EvalError}
    (h : ((e.eval (look world b a o)).run source).1 = .error error) :
    L.allowed (.eval error) := by
  rcases Expr.eval_error h with ⟨slot, member, reason⟩ | ⟨fault, rfl⟩
  · obtain ⟨meets, knows⟩ := covers slot member
    unfold look at reason
    dsimp only at reason
    rw [L.inGrid_left boards] at reason
    cases inside : (a + o.apply slot.offset).inBounds L.size with
    | false =>
      rw [inside] at reason
      rcases reason with ⟨impossible, -⟩ | ⟨impossible, -⟩ <;> cases impossible
    | true =>
      obtain ⟨cell, left, -, good⟩ := L.cells boards meets inside
      rw [inside, left] at reason
      cases found : world.resolve? cell.properties cell.atom slot.name with
      | some x =>
        simp only [found] at reason
        rcases reason with ⟨impossible, -⟩ | ⟨impossible, -⟩ <;> cases impossible
      | none =>
        simp only [found] at reason
        rcases reason with ⟨-, rfl⟩ | ⟨impossible, -⟩
        · exact knows cell e.source good found
        · cases impossible
  · exact L.allowed_formula _ _

theorem coupled_evaluate (covers : L.Covers e a a' o o') :
    Coupled L.toTie Eq (evaluate world e a o : Action β ρ _) (evaluate world e a' o') := by
  intro b c source boards
  -- Both see the same at every slot, so they draw the same and end alike.
  have same : (e.eval (look world b a o) : StateM ρ _) = e.eval (look world c a' o') :=
    Expr.eval_congr e fun slot member => L.look_eq boards slot.name (covers slot member).1
  rw [exec_evaluate, exec_evaluate, ← same]
  cases result : ((e.eval (look world b a o)).run source).1 with
  | ok x => exact .result rfl boards
  | error error =>
    exact .fault (L.faults_of_allowed (L.allowed_of_eval boards covers result) boards)

theorem coupled_holds (covers : L.Covers e a a' o o') :
    Coupled L.toTie Eq (holds world e a o : Action β ρ Bool) (holds world e a' o') := by
  refine (L.coupled_evaluate covers).bind ?_
  intro x y same
  rw [same]
  exact Coupled.pure rfl

/-! ## New cells -/

section Cells

variable {p q : Vec} (meets : L.meets p q)

include meets

variable (inside : p.inBounds L.size = true)

include inside

theorem coupled_setInitial {name : String} (covers : L.Covers e p q .identity .identity) :
    Coupled L.toTie Eq (setInitial world p name e : Action β ρ Unit)
      (setInitial world q name e) := by
  unfold setInitial
  refine (L.coupled_evaluate covers).bind ?_
  rintro value _ rfl
  cases value with
  | none => exact Coupled.pure rfl
  | some x =>
    refine (L.coupled_read meets inside).bind ?_
    rintro cell _ ⟨rfl, good⟩
    exact L.coupled_write meets inside (L.good_set name x.toFloat32 good)

end Cells

/-- Cells change their types alike wherever positions meet. -/
def Retypes (ρ : Type) [WordSource ρ] : Prop :=
  ∀ ⦃p q : Vec⦄, L.meets p q → p.inBounds L.size = true → ∀ id,
    Coupled L.toTie Eq (retype world p id : Action β ρ Unit) (retype world q id)

theorem coupled_place (retypes : L.Retypes ρ) {p q : Vec} (meets : L.meets p q)
    (inside : p.inBounds L.size = true) {anchor : Cell} {captured : Table Cell}
    (symbol : EffectSymbol) (good : L.good anchor)
    (goods : ∀ name cell, captured.get? name = some cell → L.good cell) :
    Coupled L.toTie Eq (place world anchor captured symbol p : Action β ρ Unit)
      (place world anchor captured symbol q) := by
  unfold place
  cases symbol with
  | keep => exact Coupled.pure rfl
  | anchor => exact L.coupled_write meets inside good
  | empty => exact retypes meets inside _
  | place name =>
    cases found : captured.get? name with
    | some cell =>
      simp only [found]
      exact L.coupled_write meets inside (goods name cell found)
    | none =>
      simp only [found]
      cases world.placeable? name with
      | some id => exact retypes meets inside id
      | none => exact Coupled.pure rfl

end Bridge

/-- A new cell is good at once, and each of its properties is worked out from it. -/
theorem Link.retypes [WordSource ρ] (L : Link world β γ) : L.Retypes ρ := by
  intro p q meets inside id
  unfold retype
  refine (L.coupled_write meets inside (L.good_new id)).bind ?_
  intro _ _ _
  refine Coupled.forM (R := fun x y => x = y ∧ x ∈ (world.atom id).init)
    (List.forall₂_same.mpr fun entry member => ⟨rfl, member⟩) ?_
  rintro entry _ ⟨rfl, member⟩
  refine L.coupled_setInitial meets inside ?_
  intro slot hslot
  obtain ⟨offset, knows⟩ := L.initial id entry member slot hslot
  rw [offset, Orientation.add_identity_apply_zero, Orientation.add_identity_apply_zero]
  exact ⟨meets, knows⟩

end FallingSand.Engine
