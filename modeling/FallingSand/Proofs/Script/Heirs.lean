import FallingSand.Proofs.Script.Following
import FallingSand.Proofs.Script.Retuning

/-!
# Rules that take over a probability

The rules whose probabilities differ are given by their numbers, and a line can add to
them: `repeat effect` and `inherit` take over the probability of a rule that is there.
`Builder.heirs` are the rules that come about in this way, and `Builder.heirsOf` those that
come about in some lines, directly or in turn.
-/

namespace FallingSand.Script.Builder

variable {marked : List Nat} {b : Builder} {index : Nat} {line : List Char}

instance : Decidable b.AdmitsRules := inferInstanceAs (Decidable (_ ∨ _))

instance : Decidable b.Outside :=
  match draft : b.draft with
  | none => .isTrue fun d found => by rw [draft] at found; cases found
  | some d => decidable_of_iff (d.rowsLeft = 0 ∧ d.phase = .between) (by
      constructor
      · intro outside d' found
        rw [draft] at found
        cases found
        exact outside
      · intro outside
        exact outside d draft)

/-- The rule that a line repeats with the probability of the previous one, if it is
marked. -/
def repeatHeirs (b : Builder) (marked : List Nat) (line : List Char) : List Nat :=
  match Form.repetition.read line, b.previous with
  | .ok .effect, some previous => if previous.id ∈ marked then [b.nextId] else []
  | _, _ => []

/-- The copies of marked rules that a line inherits without a probability of their own. -/
def inheritHeirs (b : Builder) (marked : List Nat) (line : List Char) : List Nat :=
  match Form.inherit.read line with
  | .error _ => []
  | .ok (name, flags) =>
    match flaggedProbability flags with
    | .ok none =>
      numbersOf (fun rule => rule.id ∈ marked) b.nextId ((b.rulesNamed? name).getD #[]).toList
    | _ => []

def ruleHeirs (b : Builder) (marked : List Nat) (line : List Char) : List Nat :=
  match keyword line with
  | "repeat" => b.repeatHeirs marked line
  | "inherit" => b.inheritHeirs marked line
  | _ => []

/-- The numbers of the rules that a line adds with the probability of a marked rule. -/
def heirs (b : Builder) (marked : List Nat) (line : List Char) : List Nat :=
  if b.AdmitsRules ∧ b.Outside then b.ruleHeirs marked line else []

/-- The marked rules and all that take over their probabilities, directly or in turn, in
some lines. -/
def heirsOf (b : Builder) (index : Nat) (marked : List Nat) : List (List Char) → List Nat
  | [] => marked
  | text :: rest =>
    match b.line index text with
    | .ok b' => b'.heirsOf (index + 1) (marked ++ b.heirs marked text) rest
    | .error _ => marked

theorem numbersOf_false (n : Nat) (rules : List Rule) :
    numbersOf (fun _ => false) n rules = [] := by
  induction rules generalizing n with
  | nil => rfl
  | cons rule rest ih => exact ih (n + 1)

@[simp] theorem heirs_nil : b.heirs [] line = [] := by
  have repeated : b.repeatHeirs [] line = [] := by
    unfold repeatHeirs
    split
    · exact if_neg List.not_mem_nil
    · rfl
  have inherited : b.inheritHeirs [] line = [] := by
    unfold inheritHeirs
    split
    · rfl
    · split
      · simp [numbersOf_false]
      · rfl
  unfold heirs ruleHeirs
  rw [repeated, inherited]
  split
  · split <;> rfl
  · rfl

@[simp] theorem heirsOf_nil {texts : List (List Char)} : b.heirsOf index [] texts = [] := by
  induction texts generalizing b index with
  | nil => rfl
  | cons text rest ih =>
    unfold heirsOf
    split
    · rw [heirs_nil, List.append_nil, ih]
    · rfl

/-- In a block that is no place for rules no rule comes about. -/
theorem heirs_of_not_admits (other : ¬b.AdmitsRules) : b.heirs marked line = [] :=
  if_neg fun place => other place.1

/-- A line of a block of a rule is no place for a rule of its own. -/
theorem heirs_of_not_outside (inside : ¬b.Outside) : b.heirs marked line = [] :=
  if_neg fun place => inside place.2

theorem heirs_of_keyword (notRepeat : keyword line ≠ "repeat")
    (notInherit : keyword line ≠ "inherit") : b.heirs marked line = [] := by
  unfold heirs ruleHeirs
  split
  · split
    · contradiction
    · contradiction
    · rfl
  · rfl

end FallingSand.Script.Builder
