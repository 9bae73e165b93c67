import FallingSand.Proofs.Geometry.Bounds
import FallingSand.Engine.Movement

/-!
# What can be drawn

A number that is drawn from a range lies in the range, whatever the words are,
and a shuffled array holds the same items. What has no chance does not come true.
A direction to a neighbor is one step long.
-/

namespace FallingSand.Random

variable {ρ : Type}

/-- What holds of every value that can be drawn. -/
def Draws {α : Type} (d : StateM ρ α) (P : α → Prop) : Prop := ∀ source, P (d.run source).1

namespace Draws

variable {α δ : Type} {P : α → Prop} {Q : δ → Prop}

theorem pure {x : α} (h : P x) : Draws (Pure.pure x : StateM ρ α) P := fun _ => h

theorem bind {d : StateM ρ α} {f : α → StateM ρ δ} (first : Draws d P)
    (next : ∀ x, P x → Draws (f x) Q) : Draws (d >>= f) Q :=
  fun source => next _ (first source) _

theorem mono {d : StateM ρ α} {P' : α → Prop} (h : Draws d P) (imp : ∀ x, P x → P' x) :
    Draws d P' :=
  fun source => imp _ (h source)

end Draws

/-! ## Numbers -/

/-- A number below `count` is below `count`. The second word cannot push it to `count`:
there the low part of the product leaves no room for a carry. -/
theorem below_lt {modulus count : Nat} {word : StateM ρ Nat} (positive : 0 < count)
    (words : Draws word (· < modulus)) : Draws (below modulus word count) (· < count) := by
  unfold below
  refine words.bind ?_
  intro w hw
  have split := Nat.div_add_mod (w * count) modulus
  have high : w * count / modulus < count := by
    rw [Nat.div_lt_iff_lt_mul (by omega), Nat.mul_comm count]
    exact Nat.mul_lt_mul_of_pos_right hw positive
  dsimp only
  -- Only close to the top does the second word count.
  by_cases close : modulus - count < w * count % modulus
  · rw [if_pos close]
    refine words.bind fun v hv => Draws.pure ?_
    -- There the quotient cannot be the last one, or the low part would be too small.
    have room : w * count / modulus + 1 < count := by
      have top : w * count ≤ (modulus - 1) * count := Nat.mul_le_mul_right _ (by omega)
      rw [Nat.sub_mul, Nat.one_mul] at top
      have full : modulus * count = modulus * (count - 1) + modulus := by
        rw [← Nat.mul_succ]
        congr 1
        omega
      by_contra last
      have quotient : w * count / modulus = count - 1 := by omega
      rw [quotient] at split
      omega
    split <;> omega
  · rw [if_neg close]
    exact Draws.pure high

variable [WordSource ρ]

theorem below32_lt {count : Nat} (positive : 0 < count) :
    Draws (below32 count : StateM ρ Nat) (· < count) := by
  refine below_lt positive ?_
  exact Draws.bind (P := fun _ => True) (fun _ => trivial) fun word _ =>
    Draws.pure word.toNat_lt

theorem below64_lt {count : Nat} (positive : 0 < count) :
    Draws (below64 count : StateM ρ Nat) (· < count) := by
  refine below_lt positive ?_
  exact Draws.bind (P := fun _ => True) (fun _ => trivial) fun word _ =>
    Draws.pure word.toNat_lt

/-- An index is one of the things that are counted. -/
theorem index_lt {count : Nat} (positive : 0 < count) :
    Draws (index count : StateM ρ Nat) (· < count) := by
  unfold index
  split
  · exact below32_lt positive
  · exact below64_lt positive

/-- A step to a neighbor, on one axis. -/
theorem between_unit : Draws (between (-1) 1 : StateM ρ Int32)
    fun d => -1 ≤ d.toInt ∧ d.toInt ≤ 1 := by
  show Draws (do return -1 + Int32.ofNat (← below32 3) : StateM ρ Int32) _
  refine (below32_lt (by decide)).bind fun n hn => Draws.pure ?_
  have cases : n = 0 ∨ n = 1 ∨ n = 2 := by omega
  rcases cases with rfl | rfl | rfl <;> decide

/-! ## Chances -/

/-- Both zeros, and nothing else, are equal to zero. -/
theorem unpack_of_beq_zero {p : Float} (zero : (p == 0.0) = true) :
    ∃ sign, p.toModel.unpack = .zero sign := by
  have compared : p.toModel.unpack.beq (.zero .positive) = true := zero
  cases unpacked : p.toModel.unpack with
  | zero sign => exact ⟨sign, rfl⟩
  | notANumber =>
    rw [unpacked] at compared
    cases compared
  | infinity sign =>
    rw [unpacked] at compared
    cases sign <;> cases compared
  | finite sign mantissa exponent positive =>
    rw [unpacked] at compared
    cases sign <;> cases compared

/-- What has no chance does not come true. -/
theorem chance_zero {p : Float} (zero : (p == 0.0) = true) :
    Draws (chance p : StateM ρ Bool) (· = false) := by
  obtain ⟨sign, unpacked⟩ := unpack_of_beq_zero zero
  have uncertain : (p == 1.0) = false := by
    show p.toModel.unpack.beq (1.0 : Float).toModel.unpack = false
    rw [unpacked]
    cases sign <;> decide +kernel
  have threshold : (p * 18446744073709551616.0).toUInt64 = 0 := by
    show (Float.Model.pack (.mul .binary64 p.toModel.unpack
      (18446744073709551616.0 : Float).toModel.unpack)).unpack.toUInt64 = 0
    rw [unpacked]
    cases sign <;> decide +kernel
  unfold chance
  rw [uncertain, threshold]
  refine Draws.bind (P := fun _ => True) (fun _ => trivial) ?_
  intro word _
  exact Draws.pure (decide_eq_false UInt64.not_lt_zero)

/-! ## Orders -/

theorem swapIfInBounds_perm {α : Type} (items : Array α) (i j : Nat) :
    (items.swapIfInBounds i j).Perm items := by
  unfold Array.swapIfInBounds
  split
  · split
    · exact Array.swap_perm _ _
    · exact Array.Perm.rfl
  · exact Array.Perm.rfl

theorem shuffleFrom_perm {α : Type} (steps done : Nat) (choices : Choices) (items : Array α) :
    Draws (shuffleFrom steps done choices items : StateM ρ (Array α)) (·.Perm items) := by
  induction steps generalizing done choices items with
  | zero => exact Draws.pure Array.Perm.rfl
  | succ steps ih =>
    unfold shuffleFrom
    refine Draws.bind (P := fun _ => True) (fun _ => trivial) ?_
    intro chosen _
    exact (ih _ _ _).mono fun _ perm => perm.trans (swapIfInBounds_perm items _ _)

/-- A shuffled array holds the same items. -/
theorem shuffle_perm {α : Type} (items : Array α) :
    Draws (shuffle items : StateM ρ (Array α)) (·.Perm items) := by
  unfold shuffle
  split
  · exact Draws.pure Array.Perm.rfl
  · exact shuffleFrom_perm _ _ _ _

end FallingSand.Random

namespace FallingSand.Engine

open FallingSand.Random (WordSource Draws)

/-- Whether an offset leads to a neighbor, or nowhere. -/
def IsUnit (d : Vec) : Prop :=
  (-1 ≤ d.x.toInt ∧ d.x.toInt ≤ 1) ∧ -1 ≤ d.y.toInt ∧ d.y.toInt ≤ 1

variable {ρ : Type} [WordSource ρ]

/-- The draws lead one step away. -/
theorem LeadsTo.moves {source : ρ} {found : Vec × ρ} (leads : LeadsTo source found) :
    IsUnit found.1 ∧ found.1 ≠ Vec.zero := by
  induction leads with
  | now somewhere => exact ⟨⟨Random.between_unit _, Random.between_unit _⟩, somewhere⟩
  | later _ _ ih => exact ih

theorem search_of_leadsTo {source next : ρ} {found : Vec × ρ} (leads : LeadsTo next found)
    (back : ∀ {found}, LeadsTo next found → LeadsTo source found) :
    (repeatM (fun skipped => pure (searchStep source skipped)) ⟨next, back⟩ : Id (Option _)) =
      some ⟨found, back leads⟩ := by
  induction leads with
  | now somewhere =>
    rw [repeatM_eq_of_monadTail, repeatM.body, searchStep, dif_neg somewhere, pure_bind]
    rfl
  | later nowhere rest ih =>
    rw [repeatM_eq_of_monadTail, repeatM.body, searchStep, dif_pos nowhere, pure_bind]
    exact ih fun rest => back (.later nowhere rest)

/-- The search ends with what the draws lead to, if they lead to anything. -/
theorem firstNeighbor?_of_leadsTo {source : ρ} {found : Vec × ρ} (leads : LeadsTo source found) :
    firstNeighbor? source = some ⟨found, leads⟩ :=
  search_of_leadsTo leads id

theorem neighborDirection_eq_some_iff {source after : ρ} {d : Vec} :
    neighborDirection.run source = (some d, after) ↔ LeadsTo source (d, after) := by
  show neighborDirection source = _ ↔ _
  unfold neighborDirection
  constructor
  · intro drawn
    split at drawn
    · rename_i leads _
      cases drawn
      exact leads
    · cases drawn
  · intro leads
    rw [firstNeighbor?_of_leadsTo leads]

theorem neighborDirection_moves : Draws (neighborDirection : StateM ρ (Option Vec)) fun found =>
    ∀ d, found = some d → IsUnit d ∧ d ≠ Vec.zero := by
  intro source d h
  exact (neighborDirection_eq_some_iff.mp (Prod.ext h rfl)).moves

end FallingSand.Engine
