import FallingSand.Proofs.Engine.Link

/-!
# Rules on linked boards

A rule does the same to linked boards if the positions meet that it looks at: the
cells of its box, as far as the box matters, the offsets of its expressions and
of its steps. The same goes for movements and for whole ticks.
-/

namespace FallingSand.Engine

open FallingSand.Random (WordSource)

variable {β γ ρ : Type} [Board β] [Board γ] {world : World}

/-! ## Boxes -/

/-- Whether a cell of the box of a rule fits its symbol. -/
def fitsCell (world : World) (owner : AtomType) (rule : Rule) (entry : Vec × Nat × Nat) :
    Action β ρ Bool :=
  match rule.matchSymbol? entry.2.1 entry.2.2 with
  | some symbol => fits world owner symbol entry.1
  | none => pure true

theorem fitsAt_eq (owner : AtomType) (rule : Rule) (target : Vec) (o : Orientation) :
    (fitsAt world owner rule target o : Action β ρ Bool) =
      (o.box rule target).allM (fitsCell world owner rule) := rfl

/-- Fills a cell of the box of a rule. -/
def fillCell [WordSource ρ] (world : World) (rule : Rule) (anchor : Cell) (captured : Table Cell)
    (entry : Vec × Nat × Nat) : Action β ρ Unit := do
  match rule.effectSymbol? entry.2.1 entry.2.2 with
  | none => return
  | some symbol => if ← inGrid entry.1 then place world anchor captured symbol entry.1

theorem fillBox_eq [WordSource ρ] (rule : Rule) (target : Vec) (o : Orientation)
    (captured : Table Cell) :
    (fillBox world rule target o captured : Action β ρ Unit) = (read target >>= fun anchor =>
      (o.box rule target).forM (fillCell world rule anchor captured)) := rfl

namespace Bridge

variable (L : Bridge world β γ)

theorem coupled_fits {p q : Vec} (meets : L.meets p q) (owner : AtomType)
    (symbol : MatchSymbol) :
    Coupled L.toTie Eq (fits world owner symbol p : Action β ρ Bool)
      (fits world owner symbol q) := by
  unfold fits
  refine (L.coupled_inGrid meets).bind ?_
  rintro x _ ⟨rfl, hx⟩
  cases inside : x with
  | false => exact Coupled.pure rfl
  | true =>
    rw [inside] at hx
    simp only [Bool.not_true, Bool.false_eq_true, if_false]
    split
    · refine (L.coupled_read meets hx.symm).bind ?_
      rintro cell _ ⟨rfl, -⟩
      exact Coupled.pure rfl
    · exact Coupled.pure rfl

theorem coupled_fitsCell {owner : AtomType} {rule : Rule} {x y : Vec × Nat × Nat}
    (coordinates : x.2 = y.2) (meets : rule.pattern.isSome → L.meets x.1 y.1) :
    Coupled L.toTie Eq (fitsCell world owner rule x : Action β ρ Bool)
      (fitsCell world owner rule y) := by
  unfold fitsCell
  rw [← coordinates]
  cases found : rule.matchSymbol? x.2.1 x.2.2 with
  | none => exact Coupled.pure rfl
  | some symbol =>
    refine L.coupled_fits (meets ?_) owner symbol
    cases pattern : rule.pattern with
    | none =>
      rw [Rule.matchSymbol?, pattern] at found
      cases found
    | some _ => rfl

variable [WordSource ρ]

theorem coupled_fillCell (retypes : L.Retypes ρ) {rule : Rule} {anchor : Cell}
    {captured : Table Cell} {x y : Vec × Nat × Nat} (coordinates : x.2 = y.2)
    (meets : L.meets x.1 y.1) (good : L.good anchor)
    (goods : ∀ name cell, captured.get? name = some cell → L.good cell) :
    Coupled L.toTie Eq (fillCell world rule anchor captured x : Action β ρ Unit)
      (fillCell world rule anchor captured y) := by
  unfold fillCell
  rw [← coordinates]
  cases rule.effectSymbol? x.2.1 x.2.2 with
  | none => exact Coupled.pure rfl
  | some symbol =>
    refine (L.coupled_inGrid meets).bind ?_
    rintro z _ ⟨rfl, hz⟩
    cases inside : z with
    | false => exact Coupled.pure rfl
    | true =>
      rw [inside] at hz
      exact L.coupled_place retypes meets hz.symm symbol good goods

/-! ## Steps -/

variable {t t' : Vec} {o o' : Orientation}

/-- The positions meet at which a step reads and writes, the box apart. -/
def CoversStep (t t' : Vec) (o o' : Orientation) : Step → Prop
  | .update _ _ offset value =>
    L.meets (t + o.apply offset) (t' + o'.apply offset) ∧ L.Covers value t t' o o'
  | .map => True
  | .bind _ source => L.meets (t + o.apply source) (t' + o'.apply source)

/-- Equal tables of good cells. -/
def Captured (x y : Table Cell) : Prop :=
  x = y ∧ ∀ name cell, x.get? name = some cell → L.good cell

theorem captured_insert {x : Table Cell} {cell : Cell} (good : L.good cell)
    (goods : ∀ name cell, x.get? name = some cell → L.good cell) (symbol : String) :
    L.Captured (x.insert symbol cell) (x.insert symbol cell) := by
  refine ⟨rfl, ?_⟩
  intro name found h
  rw [Table.get?_insert] at h
  split at h
  · cases h
    exact good
  · exact goods name found h

theorem coupled_runStep {rule : Rule} {step : Step} (covers : L.CoversStep t t' o o' step)
    (fill : step = .map → ∀ x y, L.Captured x y →
      Coupled L.toTie Eq (fillBox world rule t o x : Action β ρ Unit)
        (fillBox world rule t' o' y)) {x y : Table Cell} (captured : L.Captured x y) :
    Coupled L.toTie L.Captured (runStep world rule t o x step : Action β ρ (Table Cell))
      (runStep world rule t' o' y step) := by
  obtain ⟨rfl, goods⟩ := captured
  cases step with
  | bind symbol source =>
    refine (L.coupled_inGrid covers).bind ?_
    rintro z _ ⟨rfl, hz⟩
    cases inside : z with
    | false => exact Coupled.pure ⟨rfl, goods⟩
    | true =>
      rw [inside] at hz
      refine (L.coupled_read covers hz.symm).bind ?_
      rintro cell _ ⟨rfl, good⟩
      exact Coupled.pure (L.captured_insert good goods symbol)
  | map =>
    refine (fill rfl x x ⟨rfl, goods⟩).bind ?_
    intro _ _ _
    exact Coupled.pure ⟨rfl, goods⟩
  | update kind name offset value =>
    refine (L.coupled_evaluate covers.2).bind ?_
    rintro z _ rfl
    cases z with
    | none => exact Coupled.pure ⟨rfl, goods⟩
    | some v =>
      refine (L.coupled_change covers.1 name kind v.toFloat32).bind ?_
      intro _ _ _
      exact Coupled.pure ⟨rfl, goods⟩

theorem coupled_runSteps {rule : Rule} (covers : ∀ step ∈ rule.steps, L.CoversStep t t' o o' step)
    (fill : rule.hasMap = true → ∀ x y, L.Captured x y →
      Coupled L.toTie Eq (fillBox world rule t o x : Action β ρ Unit)
        (fillBox world rule t' o' y)) :
    Coupled L.toTie Eq (runSteps world rule t o : Action β ρ Unit) (runSteps world rule t' o') := by
  unfold runSteps
  have noCells : L.Captured {} {} := ⟨rfl, fun name cell h => by cases h⟩
  refine (Coupled.foldlM (R := fun x y => x = y ∧ x ∈ rule.steps)
    (List.forall₂_same.mpr fun step member => ⟨rfl, member⟩) ?_ noCells).bind
      fun _ _ _ => Coupled.pure rfl
  rintro x y step _ captured ⟨rfl, member⟩
  refine L.coupled_runStep (covers step member) (fun map => fill ?_) captured
  exact List.any_eq_true.mpr ⟨step, member, by rw [map]; rfl⟩

/-- A rule does the same to linked boards if all its parts do. -/
theorem coupled_applyRule {owner : AtomType} {rule : Rule}
    (fit : Coupled L.toTie Eq (fitsAt world owner rule t o : Action β ρ Bool)
      (fitsAt world owner rule t' o'))
    (conditions : ∀ e ∈ rule.conditions, L.Covers e t t' o o')
    (covers : ∀ step ∈ rule.steps, L.CoversStep t t' o o' step)
    (fill : rule.hasMap = true → ∀ x y, L.Captured x y →
      Coupled L.toTie Eq (fillBox world rule t o x : Action β ρ Unit)
        (fillBox world rule t' o' y)) :
    Coupled L.toTie Eq (applyRule world owner rule t o : Action β ρ Bool)
      (applyRule world owner rule t' o') := by
  unfold applyRule
  refine fit.bind ?_
  rintro x _ rfl
  cases x with
  | false => exact Coupled.pure rfl
  | true =>
    refine (Coupled.allM (R := fun x y => x = y ∧ x ∈ rule.conditions)
      (List.forall₂_same.mpr fun e member => ⟨rfl, member⟩) ?_).bind ?_
    · rintro e _ ⟨rfl, member⟩
      exact L.coupled_holds (conditions e member)
    · rintro y _ rfl
      cases y with
      | false => exact Coupled.pure rfl
      | true => exact (L.coupled_runSteps covers fill).bind fun _ _ _ => Coupled.pure rfl

end Bridge

end FallingSand.Engine
