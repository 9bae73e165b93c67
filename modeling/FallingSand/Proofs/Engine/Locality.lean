import FallingSand.Proofs.Engine.LinkedTicks
import FallingSand.Proofs.World.Reach

/-!
# Rules are local

Whatever a rule looks at lies no farther from its target than the rule reaches,
in every orientation: the cells of the box because the anchor lies in it, all
else because mirroring keeps the length of an offset. So a rule, and with it a
tick, does the same to linked boards where all positions so near to the target
meet themselves.
-/

namespace FallingSand.Engine

open FallingSand.Random (WordSource)

/-! ## Boxes -/

section Axis

variable {t a s : Int32} {side n : Nat}

/-- On one axis, a cell of the box is as near to the target as the anchor is to the
farther end of the box. -/
theorem near_box_axis (flip : Bool) (small : side < 256) (ha : 0 ≤ a.toInt ∧ a.toInt < side)
    (hn : n < side) (ht : 0 ≤ t.toInt ∧ t.toInt < s.toInt)
    (hp : 0 ≤ (t - (if flip then Int32.ofNat side - 1 - a else a) + Int32.ofNat n).toInt ∧
      (t - (if flip then Int32.ofNat side - 1 - a else a) + Int32.ofNat n).toInt < s.toInt) :
    ((t - (if flip then Int32.ofNat side - 1 - a else a) + Int32.ofNat n).toInt -
      t.toInt).natAbs ≤ max a.toInt.toNat (Int32.ofNat side - 1 - a).toInt.toNat := by
  have one : (1 : Int32).toInt = 1 := rfl
  have := s.toInt_lt
  have column : (Int32.ofNat n).toInt = n := Int32.toInt_ofNat_of_lt (by omega)
  have size : (Int32.ofNat side).toInt = side := Int32.toInt_ofNat_of_lt (by omega)
  have lastIndex : (Int32.ofNat side - 1).toInt = side - 1 := by
    rw [toInt_sub_of_fits] <;> rw [size, one] <;> omega
  have last : (Int32.ofNat side - 1 - a).toInt = side - 1 - a.toInt := by
    rw [toInt_sub_of_fits] <;> rw [lastIndex] <;> omega
  -- The sum may wrap, but not between two positions of one grid.
  obtain ⟨k, hk⟩ :=
    toInt_add_wraps (t - (if flip then Int32.ofNat side - 1 - a else a)) (Int32.ofNat n)
  rw [column] at hk
  -- Mirrored, the anchor is as far from the end as it was from the start.
  cases flip with
  | false =>
    simp only [Bool.false_eq_true, if_false] at hk hp ⊢
    have start : (t - a).toInt = t.toInt - a.toInt := by
      apply toInt_sub_of_fits <;> omega
    omega
  | true =>
    simp only [if_true] at hk hp ⊢
    have start : (t - (Int32.ofNat side - 1 - a)).toInt = t.toInt - (side - 1 - a.toInt) := by
      rw [toInt_sub_of_fits] <;> rw [last] <;> omega
    omega

end Axis

theorem toNat_largest_max {a b : Vec} (hx : 0 ≤ a.x.toInt) (hy : 0 ≤ a.y.toInt)
    (kx : 0 ≤ b.x.toInt) (ky : 0 ≤ b.y.toInt) :
    (a.max b).largest.toUInt32.toNat =
      max (max a.x.toInt.toNat b.x.toInt.toNat) (max a.y.toInt.toNat b.y.toInt.toNat) := by
  have larger (m n : Int32) (hm : 0 ≤ m.toInt) (hn : 0 ≤ n.toInt) :
      (if m ≤ n then n else m).toInt = max m.toInt n.toInt := by
    simp only [Int32.le_iff_toInt_le]
    split <;> omega
  have x : (a.max b).x.toInt = _ := larger a.x b.x hx kx
  have y : (a.max b).y.toInt = _ := larger a.y b.y hy ky
  have both : (a.max b).largest.toInt = _ := larger (a.max b).x (a.max b).y (by omega) (by omega)
  have := toNat_toUInt32 (a := (a.max b).largest) (by omega)
  omega

theorem near_box {o : Orientation} {rule : Rule} {target size : Vec} {entry : Vec × Nat × Nat}
    (anchored : rule.anchor.inBounds rule.size = true) (uses : rule.usesBox = true)
    (member : entry ∈ o.box rule target) (inside : target.inBounds size = true)
    (there : entry.1.inBounds size = true) : Vec.Near target entry.1 rule.boxReach.toNat := by
  have side (n : UInt8) : (Int32.ofNat n.toNat).toInt = n.toNat :=
    Int32.toInt_ofNat_of_lt (by have := n.toNat_lt; omega)
  have one : (1 : Int32).toInt = 1 := rfl
  have := rule.width.toNat_lt
  have := rule.height.toNat_lt
  simp only [Orientation.box, List.mem_map, Prod.exists] at member
  obtain ⟨column, row, coordinate, rfl⟩ := member
  obtain ⟨hc, hr⟩ := Orientation.mem_coordinates.mp coordinate
  rw [Vec.inBounds_iff] at anchored inside there
  simp only [Rule.size, side] at anchored
  have nearX := near_box_axis o.flipX (by omega) anchored.1 hc inside.1 there.1
  have nearY := near_box_axis o.flipY (by omega) anchored.2 hr inside.2 there.2
  have reach : rule.boxReach.toNat =
      max (max (rule.size - Vec.one - rule.anchor).x.toInt.toNat rule.anchor.x.toInt.toNat)
        (max (rule.size - Vec.one - rule.anchor).y.toInt.toNat rule.anchor.y.toInt.toNat) := by
    have last (n : UInt8) (a : Int32) (ha : 0 ≤ a.toInt ∧ a.toInt < n.toNat) :
        0 ≤ (Int32.ofNat n.toNat - 1 - a).toInt := by
      have := n.toNat_lt
      have lastIndex : (Int32.ofNat n.toNat - 1).toInt = n.toNat - 1 := by
        rw [toInt_sub_of_fits] <;> rw [side, one] <;> omega
      rw [toInt_sub_of_fits] <;> rw [lastIndex] <;> omega
    rw [Rule.boxReach, if_pos uses]
    exact toNat_largest_max (last rule.width _ anchored.1) (last rule.height _ anchored.2)
      anchored.1.1 anchored.2.1
  refine ⟨nearX.trans ?_, nearY.trans ?_⟩
  · rw [reach, Nat.max_comm]
    exact Nat.le_max_left _ _
  · rw [reach, Nat.max_comm]
    exact Nat.le_max_right _ _

/-- A step to a neighbor inside the grid is not longer than it looks. -/
theorem near_add_unit {p d size : Vec} (unit : IsUnit d) (hp : p.inBounds size = true)
    (hq : (p + d).inBounds size = true) : Vec.Near p (p + d) 1 := by
  rw [Vec.inBounds_iff] at hp hq
  have x := Vec.toInt_add_of_inside hp.1 hq.1
  have y := Vec.toInt_add_of_inside hp.2 hq.2
  obtain ⟨⟨_, _⟩, _, _⟩ := unit
  exact ⟨by rw [Vec.add_x]; omega, by rw [Vec.add_y]; omega⟩

/-! ## Rules -/

namespace Bridge

variable {β γ ρ : Type} [Board β] [Board γ] [WordSource ρ] {world : World}
  (L : Bridge world β γ) {target : Vec} {distance : Nat}

/-- Whether every position meets itself that is near to a target, or outside the grid. -/
def MeetsNear (target : Vec) (distance : Nat) : Prop :=
  ∀ p, (p.inBounds L.size = true →
    target.inBounds L.size = true ∧ Vec.Near target p distance) → L.meets p p

/-- Whether the properties are known that an expression reads. -/
def KnowsExpr (e : Expr) : Prop := ∀ slot ∈ e.slots, Knows world L.good L.allowed slot.name

variable {L} (meets : L.MeetsNear target distance)

include meets

section Inside

variable (inside : target.inBounds L.size = true) {rule : Rule} {o : Orientation}

include inside

theorem MeetsNear.meets_target : L.meets target target :=
  meets target fun _ => ⟨inside, Vec.near_self target distance⟩

theorem MeetsNear.meets_offset {offset : Vec} (near : offset.chebyshev.toNat ≤ distance) :
    L.meets (target + o.apply offset) (target + o.apply offset) :=
  meets _ fun there => ⟨inside, (Orientation.near_add_apply inside there).mono near⟩

theorem MeetsNear.covers {e : Expr} (knows : L.KnowsExpr e) (near : e.reach.toNat ≤ distance) :
    L.Covers e target target o o := fun slot member =>
  ⟨meets.meets_offset inside ((Expr.chebyshev_le_reach member).trans near), knows slot member⟩

theorem MeetsNear.coversStep {step : Step} (knows : ∀ e, step.value? = some e → L.KnowsExpr e)
    (near : step.reach.toNat ≤ distance) : L.CoversStep target target o o step := by
  cases step with
  | update kind name offset value =>
    have both : max offset.chebyshev.toNat value.reach.toNat ≤ distance := by
      rw [← UInt32.toNat_max]
      exact near
    exact ⟨meets.meets_offset inside (by omega),
      meets.covers inside (knows value rfl) (by omega)⟩
  | map => exact trivial
  | bind symbol source => exact meets.meets_offset inside near

/-- A rule that reaches no farther than positions meet does the same to both boards. -/
theorem MeetsNear.coupled_applyRule (retypes : L.Retypes ρ)
    (anchored : rule.anchor.inBounds rule.size = true) (near : rule.reach.toNat ≤ distance)
    (knows : ∀ e ∈ rule.exprs, L.KnowsExpr e) (owner : AtomType) :
    Coupled L.toTie Eq (applyRule world owner rule target o : Action β ρ Bool)
      (applyRule world owner rule target o) := by
  have box : rule.usesBox = true → ∀ entry ∈ o.box rule target, L.meets entry.1 entry.1 := by
    intro uses entry member
    refine meets _ fun there => ⟨inside, ?_⟩
    exact (near_box anchored uses member inside there).mono
      (Rule.boxReach_le_reach.trans near)
  refine L.coupled_applyRule ?_ ?_ ?_ ?_
  · rw [fitsAt_eq, fitsAt_eq]
    refine Coupled.allM (R := fun x y => x = y ∧ x ∈ o.box rule target)
      (List.forall₂_same.mpr fun entry member => ⟨rfl, member⟩) ?_
    rintro entry _ ⟨rfl, member⟩
    refine L.coupled_fitsCell rfl fun pattern => box ?_ entry member
    rw [Rule.usesBox, pattern, Bool.true_or]
  · intro e member
    exact meets.covers inside (knows e (List.mem_append_left _ member))
      ((Rule.condition_le_reach member).trans near)
  · intro step member
    refine meets.coversStep inside ?_ ((Rule.step_le_reach member).trans near)
    intro e value
    exact knows e (List.mem_append_right _ (List.mem_filterMap.mpr ⟨step, member, value⟩))
  · intro map x y captured
    obtain ⟨rfl, goods⟩ := captured
    rw [fillBox_eq, fillBox_eq]
    refine (L.coupled_read (meets.meets_target inside) inside).bind ?_
    rintro anchor _ ⟨rfl, good⟩
    refine Coupled.forM (R := fun x y => x = y ∧ x ∈ o.box rule target)
      (List.forall₂_same.mpr fun entry member => ⟨rfl, member⟩) ?_
    rintro entry _ ⟨rfl, member⟩
    refine L.coupled_fillCell retypes rfl (box ?_ entry member) good goods
    rw [Rule.usesBox, map, Bool.or_true]

end Inside

/-- A tick does the same to both boards where positions meet as far as rules reach. -/
theorem MeetsNear.coupled_tick (retypes : L.Retypes ρ) (positive : 1 ≤ distance)
    (here : L.meets target target)
    (rules : ∀ id, ∀ rule ∈ (world.atom id).allRules,
      rule.anchor.inBounds rule.size = true ∧ rule.reach.toNat ≤ distance ∧
        ∀ e ∈ rule.exprs, L.KnowsExpr e) :
    Coupled L.toTie Eq (tick world target : Action β ρ Outcome) (tick world target) := by
  refine L.coupled_tick here ?_ ?_
  · intro inside d unit
    exact meets _ fun there => ⟨inside, (near_add_unit unit inside there).mono positive⟩
  · intro inside id rule member o
    obtain ⟨anchored, near, knows⟩ := rules id rule member
    exact meets.coupled_applyRule inside retypes anchored near knows _

end Bridge

end FallingSand.Engine
