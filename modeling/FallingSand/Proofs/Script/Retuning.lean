import FallingSand.Proofs.Script.References

/-!
# Scripts that differ in probabilities

Lines are read on and on from what is known before them, and little of that matters to
how they are read. Two builders may differ in the probabilities of rules that are
finished, in where the references were noted and in the number of the line: every line
is accepted by both or by neither, and leaves builders behind that differ no more.
-/

namespace FallingSand

/-! ## Other probabilities -/

/-- The rule with a probability of its own, if its number is marked. -/
def Rule.retune (marked : List Nat) (p : Float) (rule : Rule) : Rule :=
  if rule.id ∈ marked then { rule with probability := p } else rule

def AtomType.retune (marked : List Nat) (p : Float) (atom : AtomType) : AtomType :=
  { atom with
    alwaysRules := atom.alwaysRules.map (Rule.retune marked p)
    rules := atom.rules.map (Rule.retune marked p) }

def World.retune (marked : List Nat) (p : Float) (world : World) : World :=
  { world with
    atoms := world.atoms.map (AtomType.retune marked p)
    nonempty := by
      rw [Array.size_map]
      exact world.nonempty }

variable {marked new : List Nat} {p : Float} {rule : Rule} {atom : AtomType}

/-- Apart from its probability a rule stays. -/
theorem Rule.retune_eq (marked : List Nat) (p : Float) (rule : Rule) :
    rule.retune marked p = { rule with probability := (rule.retune marked p).probability } := by
  unfold retune
  split <;> rfl

@[simp] theorem Rule.always_retune : (rule.retune marked p).always = rule.always := by
  rw [retune_eq]

@[simp] theorem Rule.retune_nil : Rule.retune [] p = fun rule => rule := by
  funext rule
  exact if_neg List.not_mem_nil

@[simp] theorem AtomType.retune_nil : AtomType.retune [] p = fun atom => atom := by
  funext atom
  simp [retune]

@[simp] theorem World.retune_nil (world : World) : world.retune [] p = world := by
  simp [retune]

/-- Numbers that are not yet given make no difference. -/
theorem Rule.retune_append {n : Nat} (old : rule.id < n) (above : ∀ id ∈ new, n ≤ id) :
    rule.retune (marked ++ new) p = rule.retune marked p := by
  have other : rule.id ∉ new := by
    intro member
    have := above _ member
    omega
  simp [retune, other]

theorem Rule.map_retune_append {n : Nat} {rules : Array Rule} (old : ∀ rule ∈ rules, rule.id < n)
    (above : ∀ id ∈ new, n ≤ id) :
    rules.map (Rule.retune (marked ++ new) p) = rules.map (Rule.retune marked p) :=
  Array.map_congr_left fun rule member => retune_append (old rule member) above

theorem AtomType.retune_append {n : Nat} (old : ∀ rule ∈ atom.allRules, rule.id < n)
    (above : ∀ id ∈ new, n ≤ id) :
    atom.retune (marked ++ new) p = atom.retune marked p := by
  unfold retune
  rw [Rule.map_retune_append (fun rule member => ?_) above,
    Rule.map_retune_append (fun rule member => ?_) above]
  · exact old rule (List.mem_append_right _ (Array.mem_toList_iff.mpr member))
  · exact old rule (List.mem_append_left _ (Array.mem_toList_iff.mpr member))

namespace Script

/-! ## Computations that fail together -/

/-- Two computations that both fail, or give results that correspond. -/
inductive Parallel {ε ε' α δ : Type} (R : α → δ → Prop) : Except ε α → Except ε' δ → Prop
  | ok {x : α} {y : δ} : R x y → Parallel R (.ok x) (.ok y)
  | error (e : ε) (e' : ε') : Parallel R (.error e) (.error e')

namespace Parallel

variable {ε ε' α α' δ δ' : Type} {R : α → δ → Prop} {S : α' → δ' → Prop}

theorem bind {m : Except ε α} {n : Except ε' δ} {f : α → Except ε α'} {g : δ → Except ε' δ'}
    (first : Parallel R m n) (next : ∀ x y, R x y → Parallel S (f x) (g y)) :
    Parallel S (m >>= f) (n >>= g) := by
  cases first with
  | ok related => exact next _ _ related
  | error e e' => exact .error e e'

/-- What both do first and what comes of it. -/
theorem first {m : Except ε α} {f : α → Except ε α'} {g : α → Except ε δ'}
    (next : ∀ x, m = .ok x → Parallel S (f x) (g x)) : Parallel S (m >>= f) (m >>= g) := by
  cases m with
  | ok x => exact next x rfl
  | error e => exact .error e e

/-- What is read of the line alone is the same. -/
theorem read (m : Except ε α) {f : α → Except ε α'} {g : α → Except ε δ'}
    (next : ∀ x, Parallel S (f x) (g x)) : Parallel S (m >>= f) (m >>= g) :=
  first fun x _ => next x

theorem mono {R' : α → δ → Prop} {m : Except ε α} {n : Except ε' δ} (h : Parallel R m n)
    (weaker : ∀ x y, R x y → R' x y) : Parallel R' m n := by
  cases h with
  | ok related => exact .ok (weaker _ _ related)
  | error e e' => exact .error e e'

end Parallel

def Compiled.retune (marked : List Nat) (p : Float) (compiled : Compiled) : Compiled :=
  { compiled with world := compiled.world.retune marked p }

@[simp] theorem Compiled.retune_nil (compiled : Compiled) : compiled.retune [] p = compiled := by
  simp [retune]

def Scope.retune (marked : List Nat) (p : Float) : Scope → Scope
  | .file => .file
  | .atom atom part => .atom (atom.retune marked p) part
  | .ruleset name rules => .ruleset name (rules.map (Rule.retune marked p))

namespace Builder

/-- The builder with other probabilities in place of those of the rules that are marked;
the closed rule sets are left out. -/
def retune (marked : List Nat) (p : Float) (b : Builder) : Builder :=
  { b with
    atoms := b.atoms.map (AtomType.retune marked p)
    scope := b.scope.retune marked p
    previous := b.previous.map (Rule.retune marked p) }

/-- A builder that differs from another in the probabilities of the rules that are marked,
and in where the same symbols were noted. All marks are numbers that are given. -/
inductive Retuned (marked : List Nat) (p : Float) (b : Builder) : Builder → Prop
  | intro {rulesets : Table (Array Rule)} {effectLine : Nat} {references : List (Nat × String)} :
      (∀ id ∈ marked, id < b.nextId) →
      (∀ name, rulesets.get? name =
        (b.rulesets.get? name).map (Array.map (Rule.retune marked p))) →
      (∀ symbol, symbol ∈ references.map Prod.snd ↔ symbol ∈ b.symbols) →
      Retuned marked p b { b.retune marked p with rulesets, effectLine, references }

/-- The numbers of the rules that are known are given. -/
def Counted (b : Builder) : Prop :=
  Finished (fun _ => True) (fun rule => rule.id < b.nextId) b

variable {b b' : Builder} {index index' : Nat} {line : List Char}

theorem retune_nil (b : Builder) : b.retune [] p = b := by
  obtain ⟨_, _, _, _, _, scope, _, _, _, _, _, _⟩ := b
  cases scope <;> simp [retune, Scope.retune]

namespace Retuned

theorem draft (h : Retuned marked p b b') : b'.draft = b.draft := by cases h; rfl

theorem nextId (h : Retuned marked p b b') : b'.nextId = b.nextId := by cases h; rfl

theorem inRuleset (h : Retuned marked p b b') : b'.inRuleset = b.inRuleset := by
  cases h with
  | intro marks rulesets symbols =>
    unfold Builder.inRuleset Builder.retune
    dsimp only
    cases b.scope <;> rfl

theorem inFile (h : Retuned marked p b b') : b'.inFile = b.inFile := by
  cases h with
  | intro marks rulesets symbols =>
    unfold Builder.inFile Builder.retune
    dsimp only
    cases b.scope <;> rfl

/-- The builder itself, and one that noted the same symbols on other lines. -/
theorem of_same {effectLine : Nat} {references : List (Nat × String)}
    (symbols : ∀ symbol, symbol ∈ references.map Prod.snd ↔ symbol ∈ b.symbols) :
    Retuned [] p b { b with effectLine, references } := by
  have h : Retuned [] p b { b.retune [] p with rulesets := b.rulesets, effectLine, references } :=
    .intro (fun id member => (nomatch member)) (fun name => by simp) symbols
  rw [retune_nil] at h
  exact h

theorem refl (p : Float) (b : Builder) : Retuned [] p b b := of_same fun _ => Iff.rfl

theorem setDraft (h : Retuned marked p b b') (draft : Option Draft) :
    Retuned marked p { b with draft } { b' with draft } := by
  cases h with
  | intro marks rulesets symbols => exact .intro (b := { b with draft }) marks rulesets symbols

/-- An effect block or its pattern is opened, on different lines. -/
theorem setBlock (h : Retuned marked p b b') (draft : Option Draft) (first second : Nat) :
    Retuned marked p { b with draft, effectLine := first }
      { b' with draft, effectLine := second } := by
  cases h with
  | intro marks rulesets symbols =>
    exact .intro (b := { b with draft, effectLine := first }) marks rulesets symbols

end Retuned

/-! ## Finished rules -/

theorem retune_push :
    (b.push rule).retune marked p = (b.retune marked p).push (rule.retune marked p) := by
  unfold push retune
  cases b.scope with
  | file => rfl
  | ruleset name rules => simp [Scope.retune]
  | atom atom part =>
    simp only [Scope.retune, Rule.always_retune]
    cases rule.always <;> simp [AtomType.retune]

/-- The numbers of the rules that are chosen, where the rules of a list are numbered from
`n` on. -/
def numbersOf (chosen : Rule → Bool) (n : Nat) : List Rule → List Nat
  | [] => []
  | rule :: rest =>
    (if chosen rule then [n] else []) ++ numbersOf chosen (n + 1) rest

theorem countedClosure (n : Nat) :
    RuleClosure (fun _ => True) (fun rule => rule.id < n) where
  newAtom _ _ _ _ := trivial
  change _ _ := trivial
  addRules _ _ _ := trivial
  copy _ old := old

theorem Counted.pushNew (counted : b.Counted) : (b.pushNew rule).Counted := by
  have before : Finished (fun _ => True) (fun rule => rule.id < b.nextId + 1) b :=
    counted.mono fun rule old => by omega
  exact before.pushNew (countedClosure _) (Nat.lt_succ_self _)

/-- Lines give numbers and take none back. -/
theorem Next.nextId_le (h : b.Next index line b') : b.nextId ≤ b'.nextId := by
  cases h with
  | endEffect draft rows phase finished | repeatEffect draft rows phase before form finished =>
    obtain ⟨-, rfl⟩ := finish_ok finished
    exact Nat.le_succ _
  | inherit draft found checked =>
    rw [← Array.foldl_toList, nextId_inherit]
    exact Nat.le_add_right _ _
  | row | pattern | matchLine | effectLine | endMatch | beginMatch | beginEffect | repeatMatch
    | inheritNothing | change | openPart | closePart | closeAtom | closeRuleset | openAtom
    | openRuleset | global | preload | default => exact Nat.le_refl _

theorem Counted.next (h : b.Next index line b') (counted : b.Counted) : b'.Counted := by
  have before : Finished (fun _ => True) (fun rule => rule.id < b'.nextId) b :=
    counted.mono fun rule old => Nat.lt_of_lt_of_le old h.nextId_le
  refine before.next (countedClosure _) h (fun id bound _ => bound) ?_
  intro rule _ finished
  obtain ⟨-, rfl⟩ := finish_ok finished
  exact Nat.lt_succ_self _

/-- Marking numbers that are not given changes nothing. -/
theorem retune_append (counted : b.Counted) (above : ∀ id ∈ new, b.nextId ≤ id) :
    b.retune (marked ++ new) p = b.retune marked p := by
  have atoms : b.atoms.map (AtomType.retune (marked ++ new) p) =
      b.atoms.map (AtomType.retune marked p) :=
    Array.map_congr_left fun atom member =>
      AtomType.retune_append (counted.rules_of_mem member) above
  have scope : b.scope.retune (marked ++ new) p = b.scope.retune marked p := by
    cases scope : b.scope with
    | file => rfl
    | atom atom part =>
      have known := counted.atom atom part scope
      rw [Scope.retune, AtomType.retune_append known.rules above, Scope.retune]
    | ruleset name rules =>
      have known := counted.ruleset name rules scope
      rw [Scope.retune, Rule.map_retune_append known above, Scope.retune]
  have previous : b.previous.map (Rule.retune (marked ++ new) p) =
      b.previous.map (Rule.retune marked p) := by
    cases previous : b.previous with
    | none => rfl
    | some rule =>
      exact congrArg some (Rule.retune_append (counted.previous rule previous) above)
  rw [retune, retune, atoms, scope, previous]

namespace Retuned

/-- A rule is pushed, and if it is chosen its number is marked. -/
theorem pushNew (h : Retuned marked p b b') (counted : b.Counted) {rule' : Rule} {chosen : Prop}
    [Decidable chosen] (copied : rule' = if chosen then { rule with probability := p } else rule) :
    Retuned (marked ++ if chosen then [b.nextId] else []) p (b.pushNew rule)
      (b'.pushNew rule') := by
  cases h with
  | @intro rulesets effectLine references marks tables symbols =>
    have added : ∀ id ∈ if chosen then [b.nextId] else [], id = b.nextId := by
      intro id member
      split at member
      · exact List.mem_singleton.mp member
      · cases member
    have above : ∀ id ∈ if chosen then [b.nextId] else [], b.nextId ≤ id :=
      fun id member => Nat.le_of_eq (added id member).symm
    have same : { rule' with id := b.nextId } =
        Rule.retune (marked ++ if chosen then [b.nextId] else []) p
          { rule with id := b.nextId } := by
      have fresh : b.nextId ∉ marked := fun member => Nat.lt_irrefl _ (marks _ member)
      rw [copied, Rule.retune]
      by_cases taken : chosen
      · simp [taken]
      · simp [taken, fresh]
    have pushed : (b.pushNew rule).retune (marked ++ if chosen then [b.nextId] else []) p =
        (b.retune marked p).pushNew rule' := by
      calc (b.pushNew rule).retune (marked ++ if chosen then [b.nextId] else []) p
          = push { b.retune (marked ++ if chosen then [b.nextId] else []) p with
                nextId := b.nextId + 1 }
              (Rule.retune (marked ++ if chosen then [b.nextId] else []) p
                { rule with id := b.nextId }) := retune_push
        _ = (b.retune marked p).pushNew rule' := by
          rw [retune_append counted above, ← same]
          rfl
    have moved : Builder.pushNew { b.retune marked p with rulesets, effectLine, references } rule' =
        { (b.pushNew rule).retune (marked ++ if chosen then [b.nextId] else []) p with
          rulesets, effectLine, references } := by
      rw [pushed]
      rfl
    rw [moved]
    refine .intro (b := b.pushNew rule) ?_ ?_ symbols
    · intro id member
      show id < b.nextId + 1
      rcases List.mem_append.mp member with old | last
      · exact Nat.lt_succ_of_lt (marks id old)
      · exact Nat.lt_succ_of_le (Nat.le_of_eq (added id last))
    · intro name
      show _ = (b.rulesets.get? name).map _
      rw [tables name]
      cases found : b.rulesets.get? name with
      | none => rfl
      | some rules =>
        exact congrArg some
          (Rule.map_retune_append (counted.rulesets name rules found) above).symm

/-- Rules are pushed one after the other, and those that are chosen are marked. -/
theorem pushAll (h : Retuned marked p b b') (counted : b.Counted) {rules : List Rule}
    {copy copy' : Rule → Rule} (chosen : Rule → Bool)
    (copies : ∀ rule ∈ rules,
      copy' rule = if chosen rule then { copy rule with probability := p } else copy rule) :
    Retuned (marked ++ numbersOf chosen b.nextId rules) p
      (rules.foldl (fun b rule => b.pushNew (copy rule)) b)
      (rules.foldl (fun b rule => b.pushNew (copy' rule)) b') := by
  induction rules generalizing marked b b' with
  | nil =>
    rw [numbersOf, List.append_nil]
    exact h
  | cons rule rest ih =>
    rw [List.foldl_cons, List.foldl_cons, numbersOf, ← List.append_assoc]
    exact ih (h.pushNew counted (copies rule List.mem_cons_self)) counted.pushNew
      fun rule member => copies rule (List.mem_cons_of_mem _ member)

end Retuned

end Builder

end Script

end FallingSand
