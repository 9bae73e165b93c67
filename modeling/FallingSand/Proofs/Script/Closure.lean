import FallingSand.Proofs.Script.Lines

/-!
# Properties of compiled atoms and rules

To show that all rules of compiled worlds have a property it is enough to look at
the few ways in which rules come about: a `RuleClosure` lists what becomes of
finished rules, and `Builder.Ends` says which rules a line can finish. A `Closure`
goes with a property of drafts as well. Along with both goes a property of atoms
apart from their rules; the number of an atom is looked after along the way.
-/

namespace FallingSand.Script

variable {A : AtomType → Prop} {R : Rule → Prop} {D : Draft → Prop}

/-- What has to be shown of properties of atoms and of finished rules. -/
structure RuleClosure (A : AtomType → Prop) (R : Rule → Prop) : Prop where
  newAtom : ∀ id name aliasName definitions,
    A { id, name, aliasName, definitions }
  change : ∀ {part : Option Part} {line : List Char} {atom atom' : AtomType},
    AtomChange part line atom atom' → A atom → A atom'
  addRules : ∀ {atom : AtomType} (alwaysRules rules : Array Rule), A atom →
    A { atom with alwaysRules, rules }
  copy : ∀ {rule : Rule} {probability : Option Float},
    (∀ p, probability = some p → checkProbability p = .ok p) → R rule →
    R (Builder.inheritedCopy probability rule)

/-- Where only drafts matter. -/
theorem RuleClosure.trivial : RuleClosure (fun _ => True) (fun _ => True) := by
  constructor <;> intros <;> trivial

/-- What has to be shown of properties of atoms, of finished rules and of drafts. -/
structure Closure (A : AtomType → Prop) (R : Rule → Prop) (D : Draft → Prop) : Prop
    extends RuleClosure A R where
  number : ∀ {rule : Rule} (id : Nat), R rule → R { rule with id }
  beginMatch : ∀ {x y width height : UInt8} (symmetry : Symmetry), x < width → y < height →
    D { rule := { Rule.blank width height
          ⟨Int32.ofNat x.toNat, Int32.ofNat y.toNat⟩ with symmetry }
        phase := .matching }
  row : ∀ {d d' : Draft} {line}, 0 < d.rowsLeft → d.patternRow line = .ok d' → D d → D d'
  pattern : ∀ {d d' : Draft}, d.rowsLeft = 0 → d.phase ≠ .between →
    d.beginPattern = .ok d' → D d → D d'
  matchLine : ∀ {d d' : Draft} {line}, d.rowsLeft = 0 → d.phase = .matching →
    d.matchLine line = .ok d' → D d → D d'
  effectLine : ∀ {d d' : Draft} {inRuleset line}, d.rowsLeft = 0 → d.phase = .effect →
    d.effectLine inRuleset line = .ok d' → D d → D d'
  endMatch : ∀ {d : Draft}, d.rowsLeft = 0 → d.phase = .matching → D d →
    D { d with phase := .between, patterned := false }
  beginEffect : ∀ {d : Draft} {p : Float}, d.rowsLeft = 0 → d.phase = .between →
    (p = d.rule.probability ∨ checkProbability p = .ok p) → D d →
    D { d with rule := { d.rule with probability := p }, phase := .effect, patterned := false }
  endEffect : ∀ {d : Draft}, d.rowsLeft = 0 → d.phase = .effect →
    (d.rule.hasMap = true → d.rule.effect.size = d.rule.area) → D d → R d.rule
  repeatMatch : ∀ {previous : Rule}, R previous → D { rule := Builder.rematched previous }
  repeatEffect : ∀ {d : Draft} {previous : Rule}, d.rowsLeft = 0 → d.phase = .between →
    ((Builder.reeffected d.rule previous).hasMap = true →
      previous.effect.size = d.rule.area) →
    D d → R previous → R (Builder.reeffected d.rule previous)

/-- Inheriting opens no block and notes no symbols. -/
theorem Builder.kept_inherit {b : Builder} {rules : Array Rule} {copy : Rule → Rule} :
    (rules.foldl (fun b rule => b.pushNew (copy rule)) b).draft = b.draft ∧
      (rules.foldl (fun b rule => b.pushNew (copy rule)) b).references = b.references := by
  rw [← Array.foldl_toList]
  induction rules.toList generalizing b with
  | nil => exact ⟨rfl, rfl⟩
  | cons rule rest ih => exact ih

/-- Inheriting gives every rule a number. -/
theorem Builder.nextId_inherit (b : Builder) (rules : List Rule) (copy : Rule → Rule) :
    (rules.foldl (fun b rule => b.pushNew (copy rule)) b).nextId = b.nextId + rules.length := by
  induction rules generalizing b with
  | nil => rfl
  | cons rule rest ih =>
    rw [List.foldl_cons, ih, List.length_cons, Nat.add_comm rest.length, ← Nat.add_assoc]
    rfl

/-- An atom with its number and with rules that have the property. -/
structure AtomHolds (A : AtomType → Prop) (R : Rule → Prop) (n : Nat) (atom : AtomType) :
    Prop where
  id : atom.id = UInt16.ofNat n
  own : A atom
  rules : ∀ rule ∈ atom.allRules, R rule

/-- The rules that a line can finish: that of an effect block that it closes, or a draft
with the effect of the rule before it. -/
inductive Builder.Ends (b : Builder) (line : List Char) : Rule → Prop
  | effect {d : Draft} : b.draft = some d → d.rowsLeft = 0 → d.phase = .effect →
      (d.rule.hasMap = true → d.rule.effect.size = d.rule.area) → Ends b line d.rule
  | repeated {d : Draft} {previous : Rule} : b.draft = some d → d.rowsLeft = 0 →
      d.phase = .between → b.previous = some previous →
      Form.repetition.read line = .ok .effect →
      ((Builder.reeffected d.rule previous).hasMap = true →
        previous.effect.size = d.rule.area) →
      Ends b line (Builder.reeffected d.rule previous)

/-- The atoms and the finished rules that a builder knows have the properties. -/
structure Finished (A : AtomType → Prop) (R : Rule → Prop) (b : Builder) : Prop where
  closed : ∀ n atom, b.atoms[n]? = some atom → AtomHolds A R n atom
  atom : ∀ atom part, b.scope = .atom atom part → AtomHolds A R b.atoms.size atom
  ruleset : ∀ name rules, b.scope = .ruleset name rules → ∀ rule ∈ rules, R rule
  rulesets : ∀ name rules, b.rulesets.get? name = some rules → ∀ rule ∈ rules, R rule
  previous : ∀ rule, b.previous = some rule → R rule

/-- Everything that a builder knows has the properties. -/
structure Holds (A : AtomType → Prop) (R : Rule → Prop) (D : Draft → Prop) (b : Builder) :
    Prop extends Finished A R b where
  draft : ∀ d, b.draft = some d → D d

variable {b b' : Builder}

namespace Finished

theorem start : Finished A R {} where
  closed n atom h := by
    rw [Array.getElem?_eq_none (Nat.zero_le n)] at h
    cases h
  atom _ _ h := by cases h
  ruleset _ _ h := by cases h
  rulesets _ _ h := by cases h
  previous _ h := by cases h

/-- The rules of a closed atom have the property. -/
theorem rules_of_mem (holds : Finished A R b) {atom : AtomType} (member : atom ∈ b.atoms) :
    ∀ rule ∈ atom.allRules, R rule := by
  obtain ⟨n, bound, same⟩ := Array.mem_iff_getElem.mp member
  exact (holds.closed n atom (by rw [Array.getElem?_eq_getElem bound, same])).rules

/-- The rules of a name are among those that the builder knows. -/
theorem rules_of_rulesNamed? (holds : Finished A R b) {name : String} {rules : Array Rule}
    (h : b.rulesNamed? name = some rules) : ∀ rule ∈ rules, R rule := by
  have ofAtom : ∀ rules, (b.atoms.find? (·.name == name)).map (·.rules) = some rules →
      ∀ rule ∈ rules, R rule := by
    intro rules found rule member
    obtain ⟨atom, first, rfl⟩ := Option.map_eq_some_iff.mp found
    exact holds.rules_of_mem (Array.mem_of_find?_eq_some first) rule
      (List.mem_append_right _ (Array.mem_toList_iff.mpr member))
  unfold Builder.rulesNamed? at h
  dsimp only at h
  split at h
  · rename_i openName rules' scope
    split at h
    · cases h
      exact holds.ruleset _ _ scope
    · rcases Option.or_eq_some_iff.mp h with found | ⟨-, found⟩
      · exact holds.rulesets _ _ found
      · exact ofAtom rules found
  · rename_i atom part scope
    rcases Option.or_eq_some_iff.mp h with found | ⟨-, found⟩
    · exact holds.rulesets _ _ found
    rcases Option.or_eq_some_iff.mp found with found | ⟨-, found⟩
    · exact ofAtom rules found
    split at found
    · cases found
      intro rule member
      exact (holds.atom _ _ scope).rules rule
        (List.mem_append_right _ (Array.mem_toList_iff.mpr member))
    · cases found
  · rcases Option.or_eq_some_iff.mp h with found | ⟨-, found⟩
    · exact holds.rulesets _ _ found
    · exact ofAtom rules found

theorem pushNew (closure : RuleClosure A R) (holds : Finished A R b) {rule : Rule}
    (numbered : R { rule with id := b.nextId }) : Finished A R (b.pushNew rule) := by
  unfold Builder.pushNew Builder.push
  refine ⟨holds.closed, ?_, ?_, holds.rulesets, ?_⟩
  · intro atom part h
    dsimp only at h
    split at h
    · cases h
    · cases h
    · rename_i atom₀ part₀ scope
      have known := holds.atom atom₀ part₀ scope
      split at h
      · cases h
        refine ⟨known.id, closure.addRules _ _ known.own, ?_⟩
        intro rule member
        simp only [AtomType.allRules, Array.toList_push, List.append_assoc, List.mem_append,
          List.mem_singleton] at member
        rcases member with old | rfl | old
        · exact known.rules rule (List.mem_append_left _ old)
        · exact numbered
        · exact known.rules rule (List.mem_append_right _ old)
      · cases h
        refine ⟨known.id, closure.addRules _ _ known.own, ?_⟩
        intro rule member
        simp only [AtomType.allRules, Array.toList_push, List.mem_append,
          List.mem_singleton] at member
        rcases member with old | old | rfl
        · exact known.rules rule (List.mem_append_left _ old)
        · exact known.rules rule (List.mem_append_right _ old)
        · exact numbered
  · intro name rules h
    dsimp only at h
    split at h
    · cases h
    · rename_i name₀ rules₀ scope
      cases h
      intro rule member
      rcases Array.mem_push.mp member with old | rfl
      · exact holds.ruleset _ _ scope rule old
      · exact numbered
    · split at h <;> cases h
  · intro rule h
    cases h
    exact numbered

theorem finish (closure : RuleClosure A R) (holds : Finished A R b) {rule : Rule}
    (numbered : R { rule with id := b.nextId }) (h : b.finish rule = .ok b') : Finished A R b' := by
  obtain ⟨-, rfl⟩ := Builder.finish_ok h
  refine pushNew closure ?_ numbered
  exact ⟨holds.closed, holds.atom, holds.ruleset, holds.rulesets, holds.previous⟩

theorem inherit (closure : RuleClosure A R) {probability : Option Float}
    (checked : ∀ p, probability = some p → checkProbability p = .ok p) {rules : List Rule}
    (good : ∀ rule ∈ rules, R rule)
    (number : ∀ {rule : Rule} (id : Nat), id < b.nextId + rules.length → R rule →
      R { rule with id })
    (holds : Finished A R b) :
    Finished A R (rules.foldl
      (fun b rule => b.pushNew (Builder.inheritedCopy probability rule)) b) := by
  induction rules generalizing b with
  | nil => exact holds
  | cons head rest ih =>
    rw [List.foldl_cons]
    rw [List.length_cons] at number
    refine ih (fun rule h => good rule (List.mem_cons_of_mem _ h)) (fun id bound => ?_) ?_
    · have same : (b.pushNew (Builder.inheritedCopy probability head)).nextId = b.nextId + 1 := rfl
      exact number id (by omega)
    · exact holds.pushNew closure (number b.nextId (by omega)
        (closure.copy checked (good head List.mem_cons_self)))

/-- A builder with the same atoms and finished rules. -/
theorem of_same (holds : Finished A R b) (atoms : b'.atoms = b.atoms)
    (scope : b'.scope = b.scope) (rulesets : b'.rulesets = b.rulesets)
    (previous : b'.previous = b.previous) : Finished A R b' := by
  refine ⟨?_, ?_, ?_, ?_, ?_⟩
  · rw [atoms]
    exact holds.closed
  · rw [scope, atoms]
    exact holds.atom
  · rw [scope]
    exact holds.ruleset
  · rw [rulesets]
    exact holds.rulesets
  · rw [previous]
    exact holds.previous

theorem mono {R' : Rule → Prop} (holds : Finished A R b) (weaker : ∀ rule, R rule → R' rule) :
    Finished A R' b where
  closed n atom h :=
    have known := holds.closed n atom h
    ⟨known.id, known.own, fun rule member => weaker rule (known.rules rule member)⟩
  atom atom part h :=
    have known := holds.atom atom part h
    ⟨known.id, known.own, fun rule member => weaker rule (known.rules rule member)⟩
  ruleset name rules h rule member := weaker rule (holds.ruleset name rules h rule member)
  rulesets name rules h rule member := weaker rule (holds.rulesets name rules h rule member)
  previous rule h := weaker rule (holds.previous rule h)

/-- Every line keeps the properties if the rules have them that it finishes. -/
theorem next (closure : RuleClosure A R) {index : Nat} {line : List Char}
    (h : b.Next index line b')
    (number : ∀ {rule : Rule} (id : Nat), id < b'.nextId → R rule → R { rule with id })
    (ended : ∀ rule, b.Ends line rule →
      Builder.finish { b with draft := none } rule = .ok b' → R { rule with id := b.nextId })
    (holds : Finished A R b) : Finished A R b' := by
  have same : Finished A R { b with draft := none } := holds.of_same rfl rfl rfl rfl
  cases h with
  | row | pattern | matchLine | effectLine | endMatch | beginMatch | beginEffect | repeatMatch
    | inheritNothing | global | preload | default =>
    exact holds.of_same rfl rfl rfl rfl
  | endEffect draft rows phase finished =>
    have complete := (Builder.finish_ok finished).1
    exact same.finish closure (ended _ (.effect draft rows phase complete) finished) finished
  | repeatEffect draft rows phase before form finished =>
    have complete := (Builder.finish_ok finished).1
    exact same.finish closure (ended _ (.repeated draft rows phase before form complete) finished)
      finished
  | inherit draft found checked =>
    rw [← Array.foldl_toList] at number ⊢
    rw [Builder.nextId_inherit] at number
    refine Finished.inherit closure checked ?_ number holds
    intro rule member
    exact holds.rules_of_rulesNamed? found rule (Array.mem_toList_iff.mp member)
  | change scope changed =>
    refine ⟨holds.closed, ?_, fun _ _ h => (nomatch h), holds.rulesets,
      holds.previous⟩
    intro atom part h
    cases h
    have known := holds.atom _ _ scope
    obtain ⟨id, rules⟩ := changed.kept
    refine ⟨id.trans known.id, closure.change changed known.own, ?_⟩
    rw [rules]
    exact known.rules
  | openPart part scope =>
    refine ⟨holds.closed, ?_, fun _ _ h => (nomatch h), holds.rulesets,
      holds.previous⟩
    intro atom part h
    cases h
    exact holds.atom _ _ scope
  | closePart draft scope =>
    refine ⟨holds.closed, ?_, fun _ _ h => (nomatch h), holds.rulesets,
      holds.previous⟩
    intro atom part h
    cases h
    exact holds.atom _ _ scope
  -- The open atom becomes the last of the closed ones.
  | closeAtom draft scope =>
    refine ⟨?_, fun _ _ h => (nomatch h), fun _ _ h => (nomatch h), holds.rulesets,
      holds.previous⟩
    intro n atom h
    rw [Array.getElem?_push] at h
    split at h
    · rename_i last
      cases h
      rw [last]
      exact holds.atom _ _ scope
    · exact holds.closed n atom h
  | closeRuleset draft scope =>
    refine ⟨holds.closed, fun _ _ h => (nomatch h), fun _ _ h => (nomatch h), ?_,
      holds.previous⟩
    intro name rules h
    rw [Table.get?_insert] at h
    split at h
    · cases h
      exact holds.ruleset _ _ scope
    · exact holds.rulesets name rules h
  | openAtom scope fresh =>
    refine ⟨holds.closed, ?_, fun _ _ h => (nomatch h), holds.rulesets,
      fun _ h => (nomatch h)⟩
    intro atom part h
    cases h
    exact ⟨rfl, closure.newAtom _ _ _ _, fun rule h => (nomatch h)⟩
  | openRuleset name scope =>
    refine ⟨holds.closed, fun _ _ h => (nomatch h), ?_, holds.rulesets,
      fun _ h => (nomatch h)⟩
    intro name rules h rule member
    cases h
    cases Array.not_mem_empty _ member

end Finished

namespace Holds

theorem start : Holds A R D {} where
  toFinished := .start
  draft _ h := by cases h

theorem ends (closure : Closure A R D) (holds : Holds A R D b) {line : List Char} {rule : Rule}
    (h : b.Ends line rule) : R rule := by
  cases h with
  | effect draft rows phase complete =>
    exact closure.endEffect rows phase complete (holds.draft _ draft)
  -- Half of the rule is from the draft and half from the previous rule.
  | repeated draft rows phase before form complete =>
    exact closure.repeatEffect rows phase complete (holds.draft _ draft)
      (holds.previous _ before)

/-- Every line keeps the properties. -/
theorem next (closure : Closure A R D) {index : Nat} {line : List Char}
    (h : b.Next index line b') (holds : Holds A R D b) : Holds A R D b' := by
  refine ⟨holds.toFinished.next closure.toRuleClosure h (fun id _ => closure.number id)
    fun _ ends _ => closure.number _ (holds.ends closure ends), ?_⟩
  cases h with
  | row draft rows row =>
    rintro _ ⟨⟩
    exact closure.row rows row (holds.draft _ draft)
  | pattern draft rows inside same opened =>
    rintro _ ⟨⟩
    exact closure.pattern rows inside opened (holds.draft _ draft)
  | matchLine draft rows phase added =>
    rintro _ ⟨⟩
    exact closure.matchLine rows phase added (holds.draft _ draft)
  | effectLine draft rows phase added =>
    rintro _ ⟨⟩
    exact closure.effectLine rows phase added (holds.draft _ draft)
  | endMatch draft rows phase =>
    rintro _ ⟨⟩
    exact closure.endMatch rows phase (holds.draft _ draft)
  | beginMatch rules draft x y =>
    rintro _ ⟨⟩
    exact closure.beginMatch _ x y
  | beginEffect draft rows phase checked =>
    rintro _ ⟨⟩
    exact closure.beginEffect rows phase checked (holds.draft _ draft)
  | repeatMatch rules draft before =>
    rintro _ ⟨⟩
    exact closure.repeatMatch (holds.previous _ before)
  | endEffect draft rows phase finished | repeatEffect draft rows phase before form finished =>
    obtain ⟨-, rfl⟩ := Builder.finish_ok finished
    rintro _ ⟨⟩
  | inherit draft found checked =>
    intro d drafted
    rw [Builder.kept_inherit.1, draft] at drafted
    cases drafted
  | inheritNothing | change | openPart | closePart | closeAtom | closeRuleset | openAtom
    | openRuleset | global | preload | default =>
    exact holds.draft

end Holds

/-- After any lines the open draft has a property that the writing of rules keeps. -/
theorem Closure.draft_of_lines (closure : Closure A R D) {texts : List (List Char)} {d : Draft}
    (h : Builder.lines {} 0 texts = .ok b) (draft : b.draft = some d) : D d := by
  have holds : Holds A R D b :=
    Builder.invariant_of_lines (fun next holds => holds.next closure next) .start h
  exact holds.draft d draft

/-- The rules of a compiled world have a property that the writing of rules keeps. -/
theorem Closure.rules_of_compile (closure : Closure A R D) {source : List Char}
    {compiled : Compiled} (h : compile source = .ok compiled) {atom : AtomType}
    (member : atom ∈ compiled.world.atoms) : ∀ rule ∈ atom.allRules, R rule := by
  obtain ⟨b, holds, atoms, -⟩ := Builder.exists_of_compile (I := Holds A R D)
    (fun h holds => holds.next closure h) .start h
  rw [atoms] at member
  exact holds.rules_of_mem member

/-- In a compiled world everything has properties that the writing of rules keeps. -/
theorem Closure.of_compile (closure : Closure A R D) {source : List Char} {compiled : Compiled}
    (h : compile source = .ok compiled) {n : Nat} {atom : AtomType}
    (found : compiled.world.atoms[n]? = some atom) : AtomHolds A R n atom := by
  obtain ⟨b, holds, atoms, -⟩ := Builder.exists_of_compile (I := Holds A R D)
    (fun h holds => holds.next closure h) .start h
  rw [atoms] at found
  exact holds.closed n atom found

end FallingSand.Script
