import FallingSand.Proofs.Script.Registers
import FallingSand.Proofs.Script.WellFormed

/-!
# The registers follow the builder

Every builder has registers that say the same (`Builder.registers`), up to the list
that the last rule went to, which is only looked at where rules may be repeated.
From such a pair of states each line leads to such a pair again, or to the same
problem: nothing is ever lacking (`Answers.anyLine`). There is one lemma for each
function of the builder, and each goes through the function as it is written.
-/

namespace FallingSand.Script

/-- The rules of a list of the open atom or of the open rule set. -/
def Scope.bucketRules? : Scope → Bucket → Option (Array Rule)
  | .ruleset _ rules, .ruleset => some rules
  | .atom type _, .always => some type.alwaysRules
  | .atom type _, .normal => some type.rules
  | _, _ => none

def Scope.lastRule? (scope : Scope) (bucket : Option Bucket) : Option Rule := do
  (← scope.bucketRules? (← bucket)).back?

namespace Builder

/-- The registers of a builder, but for the list that the last rule went to. -/
def registers (b : Builder) (bucket : Option Bucket) : Registers where
  atoms := match b.scope with
    | .atom atom _ => b.atoms.push atom
    | _ => b.atoms
  current := match b.scope with
    | .atom _ _ => some b.atoms.size
    | _ => none
  rulesets := match b.scope with
    | .ruleset name rules => b.rulesets.insert name rules
    | _ => b.rulesets
  ruleset := match b.scope with
    | .ruleset name _ => some name
    | _ => none
  part := b.part?
  globals := b.globals
  defaults := b.defaults
  preload := b.preload
  phase := (b.draft.map (·.phase)).getD .between
  draft := b.draft.map (·.rule)
  rowsLeft := (b.draft.map (·.rowsLeft)).getD 0
  patterned := (b.draft.map (·.patterned)).getD false
  nextId := b.nextId
  bucket := bucket
  effectLine := b.effectLine
  references := b.references
  warnings := b.warnings

/-- Whether the previous rule is the last one of a list, where rules may be repeated. -/
def Remembers (b : Builder) (bucket : Option Bucket) : Prop :=
  b.scope ≠ .file →
    b.scope.lastRule? bucket = b.previous ∧ bucket.isSome = b.previous.isSome

variable {b b' : Builder} {bucket : Option Bucket} {atom : AtomType} {part : Option Part}

theorem registers_draft? : (b.registers bucket).draft? = b.draft := by
  unfold Registers.draft? registers
  cases b.draft <;> rfl

theorem registers_atom? (scope : b.scope = .atom atom part) :
    (b.registers bucket).atom? = some atom := by
  simp [Registers.atom?, registers, scope]

theorem registers_setAtom (scope : b.scope = .atom atom part) (atom' : AtomType) :
    (b.registers bucket).setAtom atom' = registers { b with scope := .atom atom' part } bucket := by
  have last : (b.atoms.push atom).setIfInBounds b.atoms.size atom' = b.atoms.push atom' := by
    apply Array.toList_inj.mp
    simp
  simp only [Registers.setAtom, registers, scope, part?, last]

theorem registers_bucketRules? (which : Bucket) :
    (b.registers bucket).bucketRules? which = b.scope.bucketRules? which := by
  cases scope : b.scope <;> cases which <;>
    simp [Registers.bucketRules?, Scope.bucketRules?, Registers.atom?, registers, scope,
      Table.get?_insert]

theorem registers_lastRule? : (b.registers bucket).lastRule? = b.scope.lastRule? bucket := by
  cases bucket with
  | none => rfl
  | some which =>
    simp only [Registers.lastRule?, Scope.lastRule?, registers_bucketRules?]
    rfl

theorem registers_rulesNamed? (name : String) :
    (b.registers bucket).rulesNamed? name = b.rulesNamed? name := by
  unfold Registers.rulesNamed? rulesNamed? registers
  cases scope : b.scope with
  | file => rfl
  | ruleset openName rules =>
    simp only [Table.get?_insert]
    split <;> rfl
  | atom atom part =>
    simp only [Array.find?_push]
    cases b.rulesets.get? name <;> cases b.atoms.find? (·.name == name) <;> simp

theorem registers_ruleset : (b.registers bucket).ruleset.isSome = b.inRuleset := by
  unfold registers inRuleset
  cases b.scope <;> rfl

/-- What the registers say of an open rule. -/
theorem registers_of_draft (bucket : Option Bucket) {d : Draft} (draft : b.draft = some d) :
    (b.registers bucket).draft = some d.rule ∧ (b.registers bucket).phase = d.phase ∧
      (b.registers bucket).rowsLeft = d.rowsLeft ∧
      (b.registers bucket).patterned = d.patterned := by
  simp [registers, draft]

theorem registers_of_no_draft (bucket : Option Bucket) (draft : b.draft = none) :
    (b.registers bucket).draft = none ∧ (b.registers bucket).phase = .between ∧
      (b.registers bucket).rowsLeft = 0 := by
  simp [registers, draft]

/-- What the registers say of an open atom. -/
theorem registers_of_atom (bucket : Option Bucket) (scope : b.scope = .atom atom part) :
    (b.registers bucket).ruleset = none ∧ (b.registers bucket).part = part := by
  simp [registers, part?, scope]

theorem registers_of_ruleset (bucket : Option Bucket) {name : String} {rules : Array Rule}
    (scope : b.scope = .ruleset name rules) : (b.registers bucket).ruleset = some name := by
  simp [registers, scope]

theorem registers_refer (rule : Rule) :
    (b.registers bucket).refer rule = (b.refer rule).registers bucket := rfl

/-- Only the lists of the open block and the previous rule matter. -/
theorem Remembers.of_lists (remembers : b.Remembers bucket) (inside : b.scope ≠ .file)
    (lists : ∀ which, b'.scope.bucketRules? which = b.scope.bucketRules? which)
    (previous : b'.previous = b.previous) : b'.Remembers bucket := by
  obtain ⟨last, alike⟩ := remembers inside
  intro _
  rw [previous]
  refine ⟨?_, alike⟩
  rw [← last]
  cases bucket with
  | none => rfl
  | some which => simp only [Scope.lastRule?, Option.bind_eq_bind, Option.bind_some, lists]

theorem Remembers.of_same (remembers : b.Remembers bucket) (scope : b'.scope = b.scope)
    (previous : b'.previous = b.previous) : b'.Remembers bucket := by
  unfold Remembers
  rw [scope, previous]
  exact remembers

end Builder

/-- What lines keep in order: a rule is open where rules may stand, and it is well formed
as far as it is written. -/
structure Builder.Tidy (b : Builder) : Prop where
  admits : ∀ d, b.draft = some d → b.AdmitsRules
  formed : ∀ d, b.draft = some d → d.WellFormed

theorem Builder.Tidy.inside {b : Builder} (tidy : b.Tidy) :
    ∀ d, b.draft = some d → b.scope ≠ .file := by
  intro d draft file
  rcases tidy.admits d draft with ruleset | update
  · simp [inRuleset, file] at ruleset
  · simp [part?, file] at update

/-- Registers that say the same as a builder. -/
structure Follows (b : Builder) (r : Registers) : Prop where
  flat : r = b.registers r.bucket
  remembers : b.Remembers r.bucket

/-- The same answer: a builder and the registers that follow it, or the same problem.
Nothing is lacking. -/
inductive Answers : Except Problem Builder → Except Stop Registers → Prop
  | ok {b : Builder} {r : Registers} : Follows b r → Answers (.ok b) (.ok r)
  | problem (problem : Problem) : Answers (.error problem) (.error (.problem problem))

namespace Answers

open Builder (Remembers registers_ruleset)

variable {b b' : Builder} {r : Registers} {bucket : Option Bucket} {line : List Char}

theorem of_registers (flat : r = b.registers bucket) (remembers : b.Remembers bucket) :
    Answers (.ok b) (.ok r) := by
  subst flat
  exact .ok ⟨rfl, remembers⟩

/-- Outside all blocks the previous rule does not matter. -/
theorem of_file (flat : r = b.registers r.bucket) (file : b.scope = .file) :
    Answers (.ok b) (.ok r) :=
  .ok ⟨flat, fun inside => absurd file inside⟩

/-- In a block that has just been opened there is no previous rule. -/
theorem of_fresh (flat : r = b.registers none) (none : b.previous = none) :
    Answers (.ok b) (.ok r) := by
  refine of_registers flat fun _ => ?_
  rw [none]
  exact ⟨rfl, rfl⟩

/-- A line is read first, and alike. -/
theorem checked_bind {α : Type} {m : Except Problem α} {f : α → Except Problem Builder}
    {g : α → Except Stop Registers} (h : ∀ x, m = .ok x → Answers (f x) (g x)) :
    Answers (m >>= f) (checked m >>= g) := by
  cases m with
  | error problem => exact .problem problem
  | ok x => exact h x rfl

/-! ## The open atom and the open rule -/

theorem changeAtom {atom : AtomType} {part : Option Part} {line : List Char}
    (remembers : b.Remembers bucket)
    (scope : b.scope = .atom atom part) {add : AtomType → Except Problem AtomType}
    (changes : ∀ {atom'}, add atom = .ok atom' → AtomChange part line atom atom') :
    Answers (do return { b with scope := .atom (← add atom) part })
      ((b.registers bucket).changeAtom add) := by
  unfold Registers.changeAtom
  rw [Builder.registers_atom? scope]
  refine checked_bind fun atom' added => ?_
  refine of_registers (Builder.registers_setAtom scope atom') ?_
  obtain ⟨always, rules⟩ := (changes added).lists
  refine remembers.of_lists (by simp [scope]) ?_ rfl
  rw [scope]
  intro which
  cases which <;> simp [Scope.bucketRules?, always, rules]

theorem changeDraft {d : Draft} (remembers : b.Remembers bucket) (draft : b.draft = some d)
    (add : Draft → Except Problem Draft) :
    Answers (do return { b with draft := some (← add d) })
      ((b.registers bucket).changeDraft add) := by
  unfold Registers.changeDraft
  rw [Builder.registers_draft?, draft]
  exact checked_bind fun d' _ => of_registers rfl (remembers.of_same rfl rfl)

/-! ## Finished rules -/

theorem push (inside : b.scope ≠ .file) (rule : Rule) :
    Answers (.ok (b.push rule)) ((b.registers bucket).push rule) := by
  -- the list that the rule goes to has it as its last one
  obtain ⟨which, flat, last⟩ : ∃ which,
      (b.registers bucket).push rule = .ok ((b.push rule).registers (some which)) ∧
      (b.push rule).scope.lastRule? (some which) = some rule := by
    cases scope : b.scope with
    | file => exact absurd scope inside
    | ruleset name rules =>
      refine ⟨.ruleset, ?_, ?_⟩
      · simp [Registers.push, Builder.registers, Builder.push, scope, Table.get?_insert,
          Builder.part?]
      · simp [Builder.push, scope, Scope.lastRule?, Scope.bucketRules?]
    | atom atom part =>
      simp only [Registers.push, (Builder.registers_of_atom bucket scope).1,
        Builder.registers_atom? scope,
        Builder.registers_setAtom scope]
      by_cases always : rule.always = true
      · refine ⟨.always, ?_, ?_⟩
        · simp [always, Builder.push, scope, Builder.registers, Builder.part?]
        · simp [always, Builder.push, scope, Scope.lastRule?, Scope.bucketRules?]
      · refine ⟨.normal, ?_, ?_⟩
        · simp [always, Builder.push, scope, Builder.registers, Builder.part?]
        · simp [always, Builder.push, scope, Scope.lastRule?, Scope.bucketRules?]
  rw [flat]
  exact of_registers rfl fun _ => ⟨last, rfl⟩

theorem pushNew (inside : b.scope ≠ .file) (rule : Rule) :
    Answers (.ok (b.pushNew rule)) ((b.registers bucket).pushNew rule) :=
  push (b := { b with nextId := b.nextId + 1 }) inside { rule with id := b.nextId }

theorem finish (inside : b.scope ≠ .file) (rule : Rule) :
    Answers (b.finish rule) ((b.registers bucket).finish rule) := by
  unfold Builder.finish Registers.finish
  split
  · exact .problem _
  · rw [Builder.registers_refer]
    exact pushNew (b := b.refer rule) inside rule

/-! ## Lines among rules -/

theorem beginMatch_eq : b.beginMatch line =
    if b.draft.isSome then .error .ruleOpen
    else do
      let rule ← readMatch line
      return { b with draft := some { rule, phase := .matching } } := by
  unfold Builder.beginMatch readMatch
  split
  · rfl
  cases Form.matchBlock.read line with
  | error problem => rfl
  | ok header =>
    dsimp only [bind, Except.bind, pure, Except.pure]
    split
    · rfl
    cases header.symmetry with
    | none => rfl
    | some letters =>
      dsimp only
      cases Symmetry.read? letters <;> rfl

theorem beginMatch (remembers : b.Remembers bucket) :
    Answers (b.beginMatch line) ((b.registers bucket).beginMatch line) := by
  rw [beginMatch_eq]
  unfold Registers.beginMatch
  cases draft : b.draft with
  | some d =>
    simp only [Builder.registers, draft]
    exact .problem .ruleOpen
  | none =>
    simp only [Builder.registers, draft]
    refine checked_bind fun rule _ => of_registers ?_ (remembers.of_same rfl rfl)
    simp [Builder.registers, Builder.part?]

theorem beginEffect {index : Nat} (remembers : b.Remembers bucket) :
    Answers (b.beginEffect index line) ((b.registers bucket).beginEffect index line) := by
  unfold Builder.beginEffect Registers.beginEffect
  refine checked_bind fun written _ => ?_
  cases draft : b.draft with
  | none =>
    simp only [Builder.registers, draft]
    exact .problem _
  | some d =>
    simp only [Builder.registers, draft]
    cases written with
    | none => exact of_registers rfl (remembers.of_same rfl rfl)
    | some p => exact checked_bind fun p _ => of_registers rfl (remembers.of_same rfl rfl)

/-- Where lines stand that belong to no block of a rule. -/
def Idle (b : Builder) : Prop :=
  ∀ d, b.draft = some d → d.phase = .between ∧ d.patterned = false ∧ d.rowsLeft = 0

theorem Idle.registers (idle : Idle b) :
    { b.registers bucket with draft := none } =
      Builder.registers { b with draft := none } bucket := by
  cases draft : b.draft with
  | none => simp [Builder.registers, draft, Builder.part?]
  | some d =>
    obtain ⟨phase, patterned, rows⟩ := idle d draft
    simp [Builder.registers, draft, phase, patterned, rows, Builder.part?]

theorem repeatBlock (remembers : b.Remembers bucket) (inside : b.scope ≠ .file)
    (idle : Idle b) :
    Answers (b.repeatBlock line) ((b.registers bucket).repeatBlock line) := by
  unfold Builder.repeatBlock Registers.repeatBlock
  refine checked_bind fun kind _ => ?_
  rw [Builder.registers_lastRule?, (remembers inside).1]
  cases before : b.previous with
  | none => exact .problem _
  | some previous =>
    cases kind with
    | matching =>
      cases draft : b.draft with
      | some d =>
        simp only [Builder.registers, draft]
        exact .problem _
      | none =>
        simp only [Builder.registers, draft]
        refine of_registers ?_ (remembers.of_same rfl before.symm)
        simp [Builder.registers, Builder.part?, Builder.rematched]
    | effect =>
      have closed : { b.registers bucket with draft := none } =
          Builder.registers { b with draft := none } bucket := idle.registers
      cases draft : b.draft with
      | none =>
        simp only [Builder.registers, draft]
        exact .problem _
      | some d =>
        simp only [(Builder.registers_of_draft bucket draft).1, closed]
        exact finish (b := { b with draft := none }) inside _

/-- Inheriting pushes the rules one after the other. -/
theorem pushAll (follows : Follows b r) (inside : b.scope ≠ .file) (copy : Rule → Rule)
    (rules : List Rule) :
    Answers (.ok (rules.foldl (fun b rule => b.pushNew (copy rule)) b))
      (rules.foldlM (fun r rule => r.pushNew (copy rule)) r) := by
  induction rules generalizing b r with
  | nil => exact .ok follows
  | cons rule rest ih =>
    rw [List.foldlM_cons, List.foldl_cons]
    have pushed : Answers (.ok (b.pushNew (copy rule)))
        ((b.registers r.bucket).pushNew (copy rule)) := pushNew inside (copy rule)
    rw [← follows.flat] at pushed
    cases found : r.pushNew (copy rule) with
    | error stop =>
      rw [found] at pushed
      cases pushed
    | ok r' =>
      rw [found] at pushed
      cases pushed with
      | ok follows' =>
        refine ih follows' ?_
        unfold Builder.pushNew Builder.push
        cases scope : b.scope with
        | file => exact absurd scope inside
        | ruleset => simp
        | atom =>
          dsimp only
          split <;> simp

theorem inherit (remembers : b.Remembers bucket) (inside : b.scope ≠ .file) :
    Answers (b.inherit line) ((b.registers bucket).inherit line) := by
  unfold Builder.inherit Registers.inherit
  cases draft : b.draft with
  | some d =>
    simp only [Builder.registers, draft]
    exact .problem .ruleOpen
  | none =>
    simp only [(Builder.registers_of_no_draft bucket draft).1]
    refine checked_bind fun header _ => ?_
    obtain ⟨name, flags⟩ := header
    refine checked_bind fun probability _ => ?_
    rw [Builder.registers_rulesNamed?]
    cases b.rulesNamed? name with
    | none =>
      refine of_registers ?_ (remembers.of_same rfl rfl)
      simp [Builder.registers, draft, Builder.part?]
    | some rules =>
      have pushed := pushAll (b := b) (r := b.registers bucket) ⟨rfl, remembers⟩ inside
        (Builder.inheritedCopy probability) rules.toList
      rw [Array.foldl_toList] at pushed
      exact pushed

theorem ruleLine {index : Nat} (remembers : b.Remembers bucket) (inside : b.scope ≠ .file)
    (idle : Idle b) :
    Answers (b.ruleLine index line) ((b.registers bucket).ruleLine index line) := by
  unfold Builder.ruleLine Registers.ruleLine
  generalize keyword line = word
  split
  · exact beginMatch remembers
  · exact beginEffect remembers
  · exact repeatBlock remembers inside idle
  · exact inherit remembers inside
  · cases scope : b.scope with
    | file => exact absurd scope inside
    | ruleset name rules =>
      simp only [Builder.registers_of_ruleset bucket scope]
      exact .problem _
    | atom atom part =>
      simp only [(Builder.registers_of_atom bucket scope).1]
      exact changeAtom remembers scope .of_addExtension
  -- any other word, which the split may have ruled out on one side only
  · have misplaced : Answers (.error (misplaced line)) (.error (.problem (misplaced line))) :=
      .problem _
    simp only [*]

/-! ## Lines outside the blocks of rules -/

theorem bodyLine {index : Nat} (remembers : b.Remembers bucket) (idle : Idle b) :
    Answers (b.bodyLine index line) ((b.registers bucket).bodyLine index line) := by
  unfold Builder.bodyLine Registers.bodyLine
  cases scope : b.scope with
  | file =>
    simp only [Builder.registers, scope, Builder.part?]
    exact .problem _
  | ruleset name rules =>
    simp only [Builder.registers_of_ruleset bucket scope]
    exact ruleLine remembers (by simp [scope]) idle
  | atom atom part =>
    obtain ⟨noRuleset, same⟩ := Builder.registers_of_atom bucket scope
    simp only [noRuleset, same]
    cases part with
    | none => exact .problem _
    | some part =>
      cases part with
      | update => exact ruleLine remembers (by simp [scope]) idle
      | property => exact changeAtom remembers scope .of_addProperty
      | definition => exact changeAtom remembers scope .of_addDefinition
      | init => exact changeAtom remembers scope .of_addInit
      | color => exact changeAtom remembers scope .of_addColorRule

theorem openAtom : Answers (b.openAtom line) ((b.registers bucket).openAtom line) := by
  unfold Builder.openAtom Registers.openAtom Builder.inFile
  cases scope : b.scope with
  | ruleset name rules =>
    simp only [Builder.registers, scope]
    exact .problem _
  | atom atom part =>
    simp only [Builder.registers, scope]
    exact .problem _
  | file =>
    simp only [Builder.registers, scope]
    refine checked_bind fun header _ => ?_
    obtain ⟨name, aliasName⟩ := header
    dsimp only
    split
    · exact .problem _
    · exact of_fresh (by simp [Builder.registers, Builder.part?, scope]) rfl

theorem openRuleset : Answers (b.openRuleset line) ((b.registers bucket).openRuleset line) := by
  unfold Builder.openRuleset Registers.openRuleset Builder.inFile
  cases scope : b.scope with
  | ruleset name rules =>
    simp only [Builder.registers, scope]
    exact .problem _
  | atom atom part =>
    simp only [Builder.registers, scope]
    exact .problem _
  | file =>
    simp only [Builder.registers, scope]
    refine checked_bind fun name _ => of_fresh ?_ rfl
    simp [Builder.registers, Builder.part?, scope]

theorem openPart (remembers : b.Remembers bucket) :
    Answers (b.openPart line) ((b.registers bucket).openPart line) := by
  unfold Builder.openPart Registers.openPart
  cases scope : b.scope with
  | file =>
    simp only [Builder.registers, scope]
    exact .problem _
  | ruleset name rules =>
    simp only [Builder.registers, scope]
    exact .problem _
  | atom atom part =>
    cases part with
    | some part =>
      simp only [Builder.registers, scope, Builder.part?]
      exact .problem _
    | none =>
      simp only [Builder.registers, scope, Builder.part?]
      refine checked_bind fun name _ => ?_
      cases Part.ofName? name with
      | none => exact .problem _
      | some part =>
        refine of_registers rfl (remembers.of_lists (by simp [scope]) ?_ rfl)
        rw [scope]
        intro which
        cases which <;> rfl

theorem outerLine {index : Nat} (remembers : b.Remembers bucket) (idle : Idle b) :
    Answers (b.outerLine index line) ((b.registers bucket).outerLine index line) := by
  unfold Builder.outerLine Registers.outerLine
  generalize keyword line = word
  split
  · exact checked_bind fun _ _ => of_registers rfl (remembers.of_same rfl rfl)
  · exact checked_bind fun _ _ => of_registers rfl (remembers.of_same rfl rfl)
  · exact checked_bind fun _ _ => of_registers rfl (remembers.of_same rfl rfl)
  · exact openAtom
  · exact openRuleset
  · exact openPart remembers
  · have body : Answers (b.bodyLine index line) ((b.registers bucket).bodyLine index line) :=
      bodyLine remembers idle
    simp only [*]

/-! ## Blocks of rules -/

theorem beginPattern {index : Nat} {d : Draft} (remembers : b.Remembers bucket)
    (draft : b.draft = some d) (inside : d.phase ≠ .between) :
    Answers (do
        let draft ← d.beginPattern
        return { b with
          draft := some draft, effectLine := if d.phase = .effect then index else b.effectLine })
      ((b.registers bucket).beginPattern index) := by
  obtain ⟨-, same, -, patterned⟩ := Builder.registers_of_draft bucket draft
  unfold Registers.beginPattern
  rw [patterned, Builder.registers_draft?, draft, same]
  by_cases twice : d.patterned = true
  · rw [if_pos twice]
    unfold Draft.beginPattern
    rw [if_pos twice]
    exact .problem _
  rw [if_neg twice]
  cases phase : d.phase with
  | between => exact absurd phase inside
  | matching => exact checked_bind fun d' _ => of_registers rfl (remembers.of_same rfl rfl)
  | effect => exact checked_bind fun d' _ => of_registers rfl (remembers.of_same rfl rfl)

theorem close (remembers : b.Remembers bucket)
    (complete : ∀ d, b.draft = some d → d.rowsLeft = 0)
    (inside : ∀ d, b.draft = some d → b.scope ≠ .file) :
    Answers b.close ((b.registers bucket).close) := by
  unfold Builder.close Registers.close
  cases draft : b.draft with
  | some d =>
    have rows := complete d draft
    obtain ⟨rule, same, -⟩ := Builder.registers_of_draft bucket draft
    rw [same, rule]
    dsimp only
    cases phase : d.phase with
    | between => exact .problem _
    | matching =>
      refine of_registers ?_ (remembers.of_same rfl rfl)
      simp [Builder.registers, draft, Builder.part?]
    | effect =>
      have closed : { b.registers bucket with
          phase := .between, patterned := false, draft := none } =
          Builder.registers { b with draft := none } bucket := by
        simp [Builder.registers, draft, rows, Builder.part?]
      dsimp only
      rw [closed]
      exact finish (b := { b with draft := none }) (inside d draft) d.rule
  | none =>
    obtain ⟨noRule, same, -⟩ := Builder.registers_of_no_draft bucket draft
    rw [same, noRule]
    cases scope : b.scope with
    | file =>
      simp only [Builder.registers, scope, Builder.part?]
      exact .problem _
    | ruleset name rules =>
      simp only [Builder.registers, scope, Builder.part?]
      refine of_file ?_ rfl
      simp [Builder.registers, Builder.part?, draft]
    | atom atom part =>
      cases part with
      | some part =>
        simp only [Builder.registers, scope, Builder.part?]
        refine of_registers ?_ (remembers.of_lists (by simp [scope]) ?_ rfl)
        · simp [Builder.registers, Builder.part?, draft]
        · rw [scope]
          intro which
          cases which <;> rfl
      | none =>
        simp only [Builder.registers, scope, Builder.part?]
        refine of_file ?_ rfl
        simp [Builder.registers, Builder.part?, draft]

/-! ## Every line -/

theorem anyLine (tidy : b.Tidy) (remembers : b.Remembers bucket) (index : Nat)
    (text : List Char) :
    Answers (b.line index text) ((b.registers bucket).line index text) := by
  unfold Builder.line Registers.line
  cases draft : b.draft with
  | none =>
    obtain ⟨-, phase, rows⟩ := Builder.registers_of_no_draft bucket draft
    have none (P : Draft → Prop) : ∀ d, b.draft = some d → P d := by simp [draft]
    simp only [rows, Nat.lt_irrefl, if_false, phase]
    split
    · exact close remembers (none _) (none _)
    · exact outerLine remembers (none _)
  | some d =>
    obtain ⟨rule, phase, rows, -⟩ := Builder.registers_of_draft bucket draft
    have formed := tidy.formed d draft
    simp only [rows, phase, rule]
    split
    · -- the line is a row, or it closes the block too early
      split
      · have few := formed.rowsLeft_le
        simp only [Option.map_some, Option.getD_some, Nat.not_lt.mpr few, if_false]
        exact .problem _
      · exact changeDraft remembers draft fun d => d.patternRow text
    rename_i complete
    have only (P : Draft → Prop) (holds : P d) : ∀ d', b.draft = some d' → P d' := by
      intro d' found
      rw [draft] at found
      cases found
      exact holds
    split
    · exact close remembers (only _ (by omega)) tidy.inside
    cases inPhase : d.phase with
    | between =>
      rw [if_pos rfl]
      exact outerLine remembers (only _ ⟨inPhase, formed.idle inPhase, by omega⟩)
    | matching =>
      have inside : d.phase ≠ .between := by simp [inPhase]
      rw [if_neg (by decide)]
      unfold Builder.blockLine
      by_cases opens : text = "pattern".toList
      · simp only [if_pos opens]
        exact beginPattern remembers draft inside
      · simp only [if_neg opens, if_pos inPhase]
        exact changeDraft remembers draft fun d => d.matchLine text
    | effect =>
      have inside : d.phase ≠ .between := by simp [inPhase]
      have other : d.phase ≠ .matching := by simp [inPhase]
      rw [if_neg (by decide)]
      unfold Builder.blockLine
      by_cases opens : text = "pattern".toList
      · simp only [if_pos opens]
        exact beginPattern remembers draft inside
      · simp only [if_neg opens, if_neg other, registers_ruleset]
        exact changeDraft remembers draft fun d => d.effectLine b.inRuleset text

end Answers

end FallingSand.Script
