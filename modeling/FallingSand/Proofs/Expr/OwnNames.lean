import FallingSand.Proofs.Expr.Templates
import FallingSand.Proofs.Number.Numerals

/-!
# The names that compiling gives

The variable of property token number `n` is called `v_n` and that of random token number `n` is
called `r_n`, both in decimal. Names of this kind are variables, no two of them are the same, and
the environment of an evaluation reads their numbers off them (`environment_ownName`). Of other
names it knows none, unless they begin in the same way (`environment_eq_none`).
-/

namespace FallingSand.Expr

open FallingSand.Number (readNatural? readNatural?_eq_some_iff isRun_toDigits
  digitsValue_toDigits)
open FallingSand.Text (dropLead?)
open Reader (startsName continuesName)

/-! ## Names -/

theorem isVariable_ownName (v : Variable) : IsVariable (ownName v) := by
  have all : ∃ c n, ownName v = c :: '_' :: Nat.toDigits 10 n ∧ (c = 'v' ∨ c = 'r') := by
    cases v with
    | property n => exact ⟨'v', n, rfl, .inl rfl⟩
    | random n => exact ⟨'r', n, rfl, .inr rfl⟩
  obtain ⟨c, n, same, letter⟩ := all
  have starts : startsName c = true := by rcases letter with rfl | rfl <;> rfl
  have apart {d : Char} (other : d ≠ 'v' ∧ d ≠ 'r') (mark : List Char) :
      dropLead? (d :: mark) (ownName v) = none := by
    rw [same]
    rcases letter with rfl | rfl
    · exact if_neg other.1
    · exact if_neg other.2
  refine ⟨⟨⟨c, _, same, starts⟩, fun d member => ?_, apart (by decide) _, apart (by decide) _⟩,
    apart (by decide) _, apart (by decide) _, fun member => ?_⟩
  · rw [same, List.mem_cons, List.mem_cons] at member
    rcases member with rfl | rfl | member
    · rcases letter with rfl | rfl <;> rfl
    · rfl
    · have digit := (isRun_toDigits n).chars d member
      show (d.isAlpha || d.isDigit || d == '_') = true
      rw [digit, Bool.or_true, Bool.true_or]
  · -- No name with a meaning of its own has its second character in common.
    have second : ∀ name ∈ reserved, (name.toList.drop 1).head? ≠ some '_' := by decide
    refine second _ member ?_
    rw [String.toList_ofList, same]
    rfl

/-- The choice of names that compiling makes. -/
def own : Naming := ⟨ownName, isVariable_ownName⟩

theorem ownName_injective {v w : Variable} (same : ownName v = ownName w) : v = w := by
  have number {m n : Nat} (same : Nat.toDigits 10 m = Nat.toDigits 10 n) : m = n := by
    rw [← digitsValue_toDigits m, same, digitsValue_toDigits]
  cases v <;> cases w
  case property.property m n => exact congrArg _ (number (List.cons.inj (List.cons.inj same).2).2)
  case random.random m n => exact congrArg _ (number (List.cons.inj (List.cons.inj same).2).2)
  all_goals exact absurd (List.cons.inj same).1 (by decide)

/-- Whether a name begins like those that compiling gives. -/
def LooksOwn (name : String) : Prop := ['v', '_'] <+: name.toList ∨ ['r', '_'] <+: name.toList

instance (name : String) : Decidable (LooksOwn name) := inferInstanceAs (Decidable (_ ∨ _))

theorem looksOwn_ownName (v : Variable) : LooksOwn (String.ofList (ownName v)) := by
  unfold LooksOwn
  rw [String.toList_ofList]
  cases v with
  | property n => exact .inl ⟨Nat.toDigits 10 n, rfl⟩
  | random n => exact .inr ⟨Nat.toDigits 10 n, rfl⟩

/-! ## The environment of an evaluation -/

/-- What a variable stands for. -/
def Variable.value? (values draws : List Float) : Variable → Option Float
  | .property n => values[n]?
  | .random n => draws[n]?

/-- The number that a variable stands for, if it stands for one. -/
def Variable.valueOr (values draws : List Float) (v : Variable) : Float :=
  (v.value? values draws).getD 0.0

theorem value?_of_within {values draws : List Float} {v : Variable}
    (within : Within values.length draws.length v) :
    v.value? values draws = some (v.valueOr values draws) := by
  cases v with
  | property n => rw [Variable.valueOr, Variable.value?, List.getElem?_eq_getElem within]; rfl
  | random n => rw [Variable.valueOr, Variable.value?, List.getElem?_eq_getElem within]; rfl

theorem within_of_value? {values draws : List Float} {v : Variable} {x : Float}
    (found : v.value? values draws = some x) : Within values.length draws.length v := by
  cases v with
  | property n => exact (List.getElem?_eq_some_iff.mp found).1
  | random n => exact (List.getElem?_eq_some_iff.mp found).1

theorem Within.mono {properties randoms properties' randoms' : Nat} {v : Variable}
    (within : Within properties randoms v) (left : properties ≤ properties')
    (right : randoms ≤ randoms') : Within properties' randoms' v := by
  cases v with
  | property n => exact Nat.lt_of_lt_of_le within left
  | random n => exact Nat.lt_of_lt_of_le within right

theorem environment_ownName (values draws : List Float) {v : Variable}
    (small : Within UInt64.size UInt64.size v) :
    environment values draws (String.ofList (ownName v)) = v.value? values draws := by
  have read {n : Nat} (small : n < UInt64.size) :
      readNatural? (UInt64.size - 1) (Nat.toDigits 10 n) = some n :=
    readNatural?_eq_some_iff.mpr ⟨Nat.le_sub_one_of_lt small, _, ⟨0, rfl⟩, .inl rfl⟩
  unfold environment
  rw [String.toList_ofList]
  cases v with
  | property n =>
    show (readNatural? (UInt64.size - 1) (Nat.toDigits 10 n)).bind (values[·]?) = _
    rw [read small]
    rfl
  | random n =>
    show (readNatural? (UInt64.size - 1) (Nat.toDigits 10 n)).bind (draws[·]?) = _
    rw [read small]
    rfl

theorem environment_eq_none (values draws : List Float) {name : String} (other : ¬LooksOwn name) :
    environment values draws name = none := by
  unfold environment
  split
  · rename_i digits same
    exact absurd (.inl ⟨digits, same.symm⟩) other
  · rename_i digits same
    exact absurd (.inr ⟨digits, same.symm⟩) other
  · rfl

end FallingSand.Expr
