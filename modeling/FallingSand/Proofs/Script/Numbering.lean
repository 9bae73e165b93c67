import FallingSand.Proofs.Script.WellFormed

/-!
# Numbers of rules

Every finished rule gets a number of its own. A rule that is tried in every tick
goes to the one list of its type and any other rule to the other, so along
both lists the numbers ascend. The invariant is one of the builder: what it has
numbered is below the next number, in closed types and in the open one. With the
properties of single rules this gives `compiled_rules_wellFormed`.
-/

namespace FallingSand

/-- A type whose rules stand in the lists that their flags say, in the order of their
numbers. -/
structure AtomType.Ordered (atom : AtomType) : Prop where
  flagged : ∀ rule ∈ atom.alwaysRules, rule.always = true
  unflagged : ∀ rule ∈ atom.rules, rule.always = false
  alwaysAscend : atom.alwaysRules.toList.Pairwise fun rule later => rule.id < later.id
  ascend : atom.rules.toList.Pairwise fun rule later => rule.id < later.id

namespace AtomType

/-- A type with one rule more, in the list that the flag of the rule says. -/
def withRule (atom : AtomType) (rule : Rule) : AtomType :=
  if rule.always then { atom with alwaysRules := atom.alwaysRules.push rule }
  else { atom with rules := atom.rules.push rule }

/-- The numbers of the rules of a type. -/
def ruleIds (atom : AtomType) : List Nat := atom.allRules.map (·.id)

variable {atom : AtomType} {rule : Rule}

theorem ruleIds_withRule_perm : (atom.withRule rule).ruleIds.Perm (rule.id :: atom.ruleIds) := by
  unfold ruleIds
  rw [← List.map_cons]
  refine List.Perm.map _ ?_
  by_cases always : rule.always = true
  · simp [withRule, allRules, always, List.perm_middle]
  · simp only [withRule, allRules, always, Bool.false_eq_true, if_false, Array.toList_push]
    rw [← List.append_assoc]
    exact List.perm_append_singleton rule _

theorem pairwise_push {rules : Array Rule}
    (ascend : rules.toList.Pairwise fun rule later => rule.id < later.id)
    (above : ∀ earlier ∈ rules.toList, earlier.id < rule.id) :
    (rules.push rule).toList.Pairwise fun rule later => rule.id < later.id := by
  rw [Array.toList_push, List.pairwise_append]
  refine ⟨ascend, List.pairwise_singleton _ _, ?_⟩
  intro earlier member later last
  rw [List.mem_singleton.mp last]
  exact above earlier member

theorem Ordered.withRule (ordered : atom.Ordered) (above : ∀ id ∈ atom.ruleIds, id < rule.id) :
    (atom.withRule rule).Ordered := by
  have aboveRule : ∀ earlier ∈ atom.allRules, earlier.id < rule.id := by
    intro earlier member
    exact above _ (List.mem_map_of_mem member)
  unfold AtomType.withRule
  by_cases always : rule.always = true
  · rw [if_pos always]
    refine ⟨?_, ordered.unflagged, ?_, ordered.ascend⟩
    · intro other member
      rcases Array.mem_push.mp member with old | rfl
      · exact ordered.flagged other old
      · exact always
    · exact pairwise_push ordered.alwaysAscend
        fun earlier member => aboveRule _ (List.mem_append_left _ member)
  · rw [if_neg always]
    refine ⟨ordered.flagged, ?_, ordered.alwaysAscend, ?_⟩
    · intro other member
      rcases Array.mem_push.mp member with old | rfl
      · exact ordered.unflagged other old
      · simpa using always
    · exact pairwise_push ordered.ascend
        fun earlier member => aboveRule _ (List.mem_append_right _ member)

end AtomType

namespace Script

theorem AtomChange.ordered {part : Option Part} {line : List Char} {atom atom' : AtomType}
    (h : AtomChange part line atom atom') (ordered : atom.Ordered) : atom'.Ordered := by
  obtain ⟨always, rules⟩ := h.lists
  refine ⟨?_, ?_, ?_, ?_⟩
  · rw [always]
    exact ordered.flagged
  · rw [rules]
    exact ordered.unflagged
  · rw [always]
    exact ordered.alwaysAscend
  · rw [rules]
    exact ordered.ascend

namespace Builder

/-- The type whose block is open. -/
def openAtom? (b : Builder) : Option AtomType :=
  match b.scope with
  | .atom atom _ => some atom
  | _ => none

/-- The types that are closed and the one that is open. -/
def allAtoms (b : Builder) : List AtomType := b.atoms.toList ++ b.openAtom?.toList

def ruleIds (b : Builder) : List Nat := b.allAtoms.flatMap AtomType.ruleIds

/-- Numbers are given once and in order. -/
structure Numbered (b : Builder) : Prop where
  below : ∀ id ∈ b.ruleIds, id < b.nextId
  distinct : b.ruleIds.Nodup
  ordered : ∀ atom ∈ b.allAtoms, atom.Ordered

variable {b b' : Builder} {atom : AtomType} {part : Option Part}

theorem allAtoms_of_atom (scope : b.scope = .atom atom part) :
    b.allAtoms = b.atoms.toList ++ [atom] := by
  simp [allAtoms, openAtom?, scope]

theorem allAtoms_of_other (scope : ∀ atom part, b.scope ≠ .atom atom part) :
    b.allAtoms = b.atoms.toList := by
  unfold allAtoms openAtom?
  split
  · rename_i atom part found
    exact absurd found (scope atom part)
  · simp

theorem scope_pushNew (scope : b.scope = .atom atom part) (rule : Rule) :
    (b.pushNew rule).scope = .atom (atom.withRule { rule with id := b.nextId }) part := by
  simp only [pushNew, push, scope, AtomType.withRule]
  split <;> rfl

namespace Numbered

/-- Only the numbers of the rules matter, and how the rules of each type stand. -/
theorem of_ids (numbered : b.Numbered) (ids : b'.ruleIds = b.ruleIds)
    (later : b.nextId ≤ b'.nextId) (ordered : ∀ atom ∈ b'.allAtoms, atom.Ordered) :
    b'.Numbered := by
  refine ⟨?_, ?_, ordered⟩
  · rw [ids]
    intro id member
    have := numbered.below id member
    omega
  · rw [ids]
    exact numbered.distinct

theorem of_atoms (numbered : b.Numbered) (atoms : b'.allAtoms = b.allAtoms)
    (later : b.nextId ≤ b'.nextId) : b'.Numbered := by
  refine numbered.of_ids (by rw [ruleIds, atoms, ruleIds]) later ?_
  rw [atoms]
  exact numbered.ordered

/-- The closed types stay as they are. -/
theorem ordered_last (numbered : b.Numbered) (after : b'.allAtoms = b.atoms.toList ++ [atom])
    (ordered : atom.Ordered) : ∀ other ∈ b'.allAtoms, other.Ordered := by
  intro other member
  rw [after] at member
  rcases List.mem_append.mp member with old | new
  · exact numbered.ordered other (List.mem_append_left _ old)
  · rw [List.mem_singleton.mp new]
    exact ordered

/-- Outside types nothing is numbered. -/
theorem of_other (numbered : b.Numbered) (before : ∀ atom part, b.scope ≠ .atom atom part)
    (after : ∀ atom part, b'.scope ≠ .atom atom part) (atoms : b'.atoms = b.atoms)
    (later : b.nextId ≤ b'.nextId) : b'.Numbered := by
  refine numbered.of_atoms ?_ later
  rw [allAtoms_of_other before, allAtoms_of_other after, atoms]

/-- A type without rules may be opened. -/
theorem openAtom (numbered : b.Numbered) (scope : b.scope = .file)
    (always : atom.alwaysRules = #[]) (rules : atom.rules = #[]) :
    Numbered { b with scope := .atom atom none, previous := none } := by
  have blank : atom.ruleIds = [] := by
    simp [AtomType.ruleIds, AtomType.allRules, always, rules]
  have before : b.allAtoms = b.atoms.toList := allAtoms_of_other (by simp [scope])
  have after := allAtoms_of_atom (b := { b with scope := .atom atom none, previous := none }) rfl
  refine numbered.of_ids (by simp [ruleIds, before, after, blank]) (Nat.le_refl _) ?_
  exact numbered.ordered_last after
    ⟨by simp [always], by simp [rules], by simp [always], by simp [rules]⟩

/-- The open type may get other data, if its rules stay. -/
theorem of_open {atom' : AtomType} (numbered : b.Numbered)
    (before : b.allAtoms = b.atoms.toList ++ [atom])
    (after : b'.allAtoms = b.atoms.toList ++ [atom'])
    (ids : atom'.ruleIds = atom.ruleIds) (ordered : atom'.Ordered)
    (same : b'.nextId = b.nextId) : b'.Numbered :=
  numbered.of_ids (by simp [ruleIds, before, after, ids]) same.ge
    (numbered.ordered_last after ordered)

theorem pushNew (numbered : b.Numbered) (rule : Rule) : (b.pushNew rule).Numbered := by
  cases scope : b.scope with
  | file =>
    exact numbered.of_other (by simp [scope]) (by simp [Builder.pushNew, push, scope]) rfl
      (Nat.le_succ _)
  | ruleset name rules =>
    exact numbered.of_other (by simp [scope]) (by simp [Builder.pushNew, push, scope]) rfl
      (Nat.le_succ _)
  | atom atom part =>
    have before := allAtoms_of_atom scope
    have after : (b.pushNew rule).allAtoms =
        b.atoms.toList ++ [atom.withRule { rule with id := b.nextId }] :=
      allAtoms_of_atom (scope_pushNew scope rule)
    -- the numbers that were there, and the new one, which is above them all
    have ids : (b.pushNew rule).ruleIds.Perm (b.nextId :: b.ruleIds) := by
      simp only [ruleIds, before, after, List.flatMap_append, List.flatMap_cons,
        List.flatMap_nil, List.append_nil]
      exact (List.Perm.append_left _ AtomType.ruleIds_withRule_perm).trans List.perm_middle
    refine ⟨?_, ?_, numbered.ordered_last after ?_⟩
    · intro id member
      show id < b.nextId + 1
      rcases List.mem_cons.mp (ids.mem_iff.mp member) with rfl | old
      · omega
      · have := numbered.below id old
        omega
    · rw [ids.nodup_iff, List.nodup_cons]
      refine ⟨?_, numbered.distinct⟩
      intro member
      exact absurd (numbered.below _ member) (Nat.lt_irrefl _)
    · refine (numbered.ordered atom (by simp [before])).withRule ?_
      intro id member
      refine numbered.below id ?_
      rw [ruleIds, before]
      exact List.mem_flatMap.mpr ⟨atom, by simp, member⟩

theorem finish (numbered : b.Numbered) {rule : Rule} (h : b.finish rule = .ok b') :
    b'.Numbered := by
  obtain ⟨-, rfl⟩ := finish_ok h
  exact Numbered.pushNew (b := b.refer rule) (numbered.of_atoms rfl (Nat.le_refl _)) rule

theorem inherit (numbered : b.Numbered) (copy : Rule → Rule) (rules : List Rule) :
    (rules.foldl (fun b rule => b.pushNew (copy rule)) b).Numbered := by
  induction rules generalizing b with
  | nil => exact numbered
  | cons rule rest ih => exact ih (numbered.pushNew (copy rule))

/-- Every line keeps the numbers in order. -/
theorem next {index : Nat} {line : List Char} (h : b.Next index line b')
    (numbered : b.Numbered) : b'.Numbered := by
  cases h with
  | row | pattern | matchLine | effectLine | endMatch | beginMatch | beginEffect | repeatMatch
    | inheritNothing | global | preload | default =>
    exact numbered.of_atoms rfl (Nat.le_refl _)
  | endEffect draft rows phase finished =>
    exact Numbered.finish (b := { b with draft := none })
      (numbered.of_atoms rfl (Nat.le_refl _)) finished
  | repeatEffect draft rows phase before form finished =>
    exact Numbered.finish (b := { b with draft := none })
      (numbered.of_atoms rfl (Nat.le_refl _)) finished
  | inherit draft found checked =>
    rw [← Array.foldl_toList]
    exact numbered.inherit _ _
  | change scope changed =>
    have before := allAtoms_of_atom scope
    refine numbered.of_open before (allAtoms_of_atom rfl) ?_
      (changed.ordered (numbered.ordered _ (by simp [before]))) rfl
    rw [AtomType.ruleIds, changed.kept.2, AtomType.ruleIds]
  | openPart part scope =>
    refine numbered.of_atoms ?_ (Nat.le_refl _)
    rw [allAtoms_of_atom scope]
    exact allAtoms_of_atom rfl
  | closePart draft scope =>
    refine numbered.of_atoms ?_ (Nat.le_refl _)
    rw [allAtoms_of_atom scope]
    exact allAtoms_of_atom rfl
  -- the open type becomes the last of the closed ones
  | closeAtom draft scope =>
    refine numbered.of_atoms ?_ (Nat.le_refl _)
    rw [allAtoms_of_atom scope, allAtoms_of_other (by simp)]
    exact Array.toList_push
  | closeRuleset draft scope =>
    exact numbered.of_other (by simp [scope]) (by simp) rfl (Nat.le_refl _)
  | openAtom scope fresh =>
    exact numbered.openAtom scope rfl rfl
  | openRuleset name scope =>
    exact numbered.of_other (by simp [scope]) (by simp) rfl (Nat.le_refl _)

end Numbered

end Builder

/-- The rules of a compiled world are well formed and stand in order. -/
theorem compiled_rules_wellFormed {source : List Char} {compiled : Compiled}
    (h : compile source = .ok compiled) :
    (∀ atom ∈ compiled.world.atoms, atom.Ordered ∧ ∀ rule ∈ atom.allRules, rule.WellFormed) ∧
      (compiled.world.rules.map (·.2.id)).Nodup := by
  have start : Builder.Numbered {} := by
    refine ⟨?_, ?_, ?_⟩ <;> simp [Builder.ruleIds, Builder.allAtoms, Builder.openAtom?]
  obtain ⟨b, numbered, atoms, -⟩ := Builder.exists_of_compile
    (fun next numbered => numbered.next next) start h
  refine ⟨?_, ?_⟩
  · intro atom member
    refine ⟨numbered.ordered atom ?_, ?_⟩
    · rw [atoms] at member
      exact List.mem_append_left _ (Array.mem_toList_iff.mpr member)
    · exact wellFormedClosure.rules_of_compile h member
  · have ids : compiled.world.rules.map (·.2.id) = b.atoms.toList.flatMap AtomType.ruleIds := by
      rw [World.rules, atoms, List.map_flatMap]
      refine List.flatMap_congr fun atom _ => ?_
      rw [List.map_map, AtomType.ruleIds]
      rfl
    rw [ids]
    have distinct := numbered.distinct
    rw [Builder.ruleIds, Builder.allAtoms, List.flatMap_append] at distinct
    exact distinct.of_append_left

/-- A script with a rule that is always run, rules that repeat a part of another one, and types
that inherit from a rule set and from each other. -/
def sifting : List Char :=
  ["ruleset Drift \x7b", "match (0, 0, 2, 1) sym(x) \x7b", "pattern", "x _", "\x7d",
   "-> \x7b", "def side = (1, 0)", "pattern", "side x", "\x7d", "\x7d",
   "atom Empty \x7b", "\x7d",
   "atom Sand \x7b", "section update \x7b",
   "match (0, 0, 1, 2) \x7b", "pattern", "x", "_", "\x7d",
   "-> P-0.5 \x7b", "always-run", "def under = (0, 1)", "pattern", "under", "x", "\x7d",
   "repeat match", "-> \x7b", "set [wet] = 1", "shift(0, 1)", "\x7d",
   "match (0, 0, 1, 2) sym(x) \x7b", "\x7d", "repeat effect",
   "inherit Drift", "\x7d", "\x7d",
   "atom Silt \x7b", "section update \x7b", "inherit Sand", "inherit Drift", "\x7d",
   "\x7d"].flatMap fun line => line.toList ++ ['\n']

theorem sifting_compiles : (compile sifting).toOption.isSome = true := by decide +kernel

def sifted : Compiled := (compile sifting).toOption.get sifting_compiles

/-- The copies that a type inherits have numbers of their own. -/
theorem sifted_rules_wellFormed :
    (sifted.world.atoms.toList.map fun atom =>
      (atom.alwaysRules.toList.map (·.id), atom.rules.toList.map (·.id))) =
        [([], []), ([1], [2, 3, 4]), ([], [5, 6, 7, 8])] ∧
    (∀ atom ∈ sifted.world.atoms, atom.Ordered ∧ ∀ rule ∈ atom.allRules, rule.WellFormed) ∧
      (sifted.world.rules.map (·.2.id)).Nodup := by
  have compiled : compile sifting = .ok sifted :=
    eq_ok_of_toOption (Option.some_get sifting_compiles).symm
  exact ⟨by decide +kernel, compiled_rules_wellFormed compiled⟩

end Script

end FallingSand
