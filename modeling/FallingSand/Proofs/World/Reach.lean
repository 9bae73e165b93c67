import FallingSand.Proofs.Geometry.Bounds
import FallingSand.World.Basic

/-!
# Reaches are bounds

The reach of a rule is a maximum over its box, its conditions and its steps, and
the farthest rule of a world is one that no other rule reaches beyond.
-/

namespace FallingSand

theorem le_foldl_max {α : Type} (f : α → UInt32) (l : List α) (start : UInt32) :
    start.toNat ≤ (l.foldl (fun m x => max m (f x)) start).toNat ∧
      ∀ x ∈ l, (f x).toNat ≤ (l.foldl (fun m x => max m (f x)) start).toNat := by
  induction l generalizing start with
  | nil => exact ⟨Nat.le_refl _, fun x h => by cases h⟩
  | cons head rest ih =>
    rw [List.foldl_cons]
    obtain ⟨below, each⟩ := ih (max start (f head))
    rw [UInt32.toNat_max] at below
    refine ⟨by omega, ?_⟩
    intro x h
    cases h with
    | head => omega
    | tail _ h => exact each x h

namespace Expr

theorem chebyshev_le_reach {e : Expr} {slot : Slot} (h : slot ∈ e.slots) :
    slot.offset.chebyshev.toNat ≤ e.reach.toNat :=
  (le_foldl_max (fun slot : Slot => slot.offset.chebyshev) e.slots 0).2 slot h

end Expr

/-- The expression that a step evaluates. -/
def Step.value? : Step → Option Expr
  | .update _ _ _ value => some value
  | _ => none

namespace Rule

/-- The expressions that a rule evaluates. -/
def exprs (rule : Rule) : List Expr := rule.conditions ++ rule.steps.filterMap Step.value?

variable {rule : Rule}

theorem boxReach_le_reach : rule.boxReach.toNat ≤ rule.reach.toNat := by
  unfold reach
  dsimp only
  rw [UInt32.toNat_max, UInt32.toNat_max]
  omega

theorem condition_le_reach {e : Expr} (h : e ∈ rule.conditions) :
    e.reach.toNat ≤ rule.reach.toNat := by
  have := (le_foldl_max Expr.reach rule.conditions 0).2 e h
  unfold reach
  dsimp only
  rw [UInt32.toNat_max, UInt32.toNat_max]
  omega

theorem step_le_reach {step : Step} (h : step ∈ rule.steps) :
    step.reach.toNat ≤ rule.reach.toNat := by
  have := (le_foldl_max Step.reach rule.steps 0).2 step h
  unfold reach
  dsimp only
  rw [UInt32.toNat_max]
  omega

end Rule

namespace World

variable (world : World)

theorem atom_mem (id : AtomId) : world.atom id ∈ world.atoms.toList := by
  unfold atom atom?
  cases found : world.atoms[id.toNat]? with
  | some atom =>
    rw [Option.getD_some]
    exact Array.mem_toList_iff.mpr (Array.mem_of_getElem? found)
  | none =>
    rw [Option.getD_none]
    exact Array.mem_toList_iff.mpr (Array.getElem_mem _)

/-- The rules of every type, also of the one that stands in for a missing type, are
rules of the world. -/
theorem mem_rules {id : AtomId} {rule : Rule} (h : rule ∈ (world.atom id).allRules) :
    (world.atom id, rule) ∈ world.rules := by
  unfold rules
  rw [List.mem_flatMap]
  exact ⟨world.atom id, world.atom_mem id, List.mem_map_of_mem h⟩

/-- What is left of two rules when the farthest is looked for. -/
def farther (best : Option (AtomType × Rule)) (entry : AtomType × Rule) :
    Option (AtomType × Rule) :=
  match best with
  | none => some entry
  | some (atom, rule) => if entry.2.reach < rule.reach then some (atom, rule) else some entry

theorem foldl_farther (entries : List (AtomType × Rule)) (best : Option (AtomType × Rule)) :
    ∀ result, entries.foldl farther best = some result →
      (∀ b, best = some b → b.2.reach.toNat ≤ result.2.reach.toNat) ∧
      ∀ entry ∈ entries, entry.2.reach.toNat ≤ result.2.reach.toNat := by
  induction entries generalizing best with
  | nil =>
    intro result h
    refine ⟨?_, fun entry h => by cases h⟩
    intro b hb
    rw [List.foldl_nil, hb] at h
    cases h
    exact Nat.le_refl _
  | cons head rest ih =>
    intro result h
    rw [List.foldl_cons] at h
    obtain ⟨carried, later⟩ := ih _ result h
    -- Whichever of the two is carried on, it reaches as far as the other.
    have both : head.2.reach.toNat ≤ result.2.reach.toNat ∧
        ∀ b, best = some b → b.2.reach.toNat ≤ result.2.reach.toNat := by
      cases best with
      | none => exact ⟨carried head rfl, fun b hb => by cases hb⟩
      | some b =>
        obtain ⟨atom, rule⟩ := b
        unfold farther at carried
        by_cases less : head.2.reach < rule.reach
        · have kept := carried (atom, rule) (if_pos less)
          have := UInt32.lt_iff_toNat_lt.mp less
          refine ⟨by dsimp only at kept; omega, ?_⟩
          intro b hb
          cases hb
          exact kept
        · have kept := carried head (if_neg less)
          rw [UInt32.lt_iff_toNat_lt] at less
          refine ⟨kept, ?_⟩
          intro b hb
          cases hb
          dsimp only
          omega
    refine ⟨both.2, ?_⟩
    intro entry member
    cases member with
    | head => exact both.1
    | tail _ member => exact later entry member

/-- No rule reaches beyond the farthest one. -/
theorem reach_le_farthest {entry best : AtomType × Rule} (member : entry ∈ world.rules)
    (farthest : world.farthest? = some best) :
    entry.2.reach.toNat ≤ best.2.reach.toNat :=
  (foldl_farther world.rules none best farthest).2 entry member

/-- Where there are rules there is a farthest one. -/
theorem farthest?_isSome {entry : AtomType × Rule} (member : entry ∈ world.rules) :
    world.farthest?.isSome := by
  have kept : ∀ (entries : List (AtomType × Rule)) (best : Option (AtomType × Rule)),
      best.isSome → (entries.foldl farther best).isSome := by
    intro entries
    induction entries with
    | nil => exact fun _ h => h
    | cons head rest ih =>
      intro best present
      refine ih _ ?_
      obtain ⟨b, rfl⟩ := Option.isSome_iff_exists.mp present
      unfold farther
      dsimp only
      split <;> rfl
  show (world.rules.foldl farther none).isSome
  revert member
  generalize world.rules = entries
  intro member
  cases entries with
  | nil => cases member
  | cons head rest => exact kept rest _ rfl

end World

end FallingSand
