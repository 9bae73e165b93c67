import FallingSand.Proofs.Script.Lockstep
import FallingSand.Proofs.Script.Words

/-!
# Blocks of rules

Match blocks and effect blocks as a whole. What a block says depends on its lines, on the
rule that it belongs to and on whether it stands in a rule set, where no rule is run
always. `Block.readMatch` is the rule that a match block opens and `Block.readEffect` the
one that an effect block makes of it; a builder only puts them in their places.
-/

namespace FallingSand.Script

/-- The line that ends a block. -/
def closing : List Char := ['\x7d']

/-- A complete block of a rule: its header, which starts with a word, and the lines up to
the one that ends it. -/
structure Block (word : String) where
  header : List Char
  inner : List (List Char)
  named : keyword header = word
  apart : closing ∉ inner

/-- The lines of a block. -/
def Block.texts {word : String} (block : Block word) : List (List Char) :=
  block.header :: (block.inner ++ [closing])

/-! ## Words at the start of a line -/

section Words

variable {line : List Char}

theorem keyword_of_repetition {kind : Form.Repeated} (h : Form.repetition.read line = .ok kind) :
    keyword line = "repeat" :=
  keyword_of_leading (by decide) rfl (by decide) h

theorem keyword_of_inherit {header : String × List (String × List Char)}
    (h : Form.inherit.read line = .ok header) : keyword line = "inherit" :=
  keyword_of_leading (by decide) rfl (by decide) h

theorem keyword_of_rulesetStart {name : String} (h : Form.rulesetStart.read line = .ok name) :
    keyword line = "ruleset" :=
  keyword_of_leading (by decide) rfl (by decide) h

end Words

namespace Draft

/-- A line inside of a block of a rule. -/
def blockLine (inRuleset : Bool) (d : Draft) (text : List Char) : Except Problem Draft :=
  if 0 < d.rowsLeft then d.patternRow text
  else if text = "pattern".toList then d.beginPattern
  else if d.phase = .matching then d.matchLine text
  else d.effectLine inRuleset text

/-- The rule of a block that ends here. -/
def ended (d : Draft) : Except Problem Rule :=
  if 0 < d.rowsLeft then
    .error (.rowCount d.rule.height.toNat (d.rule.height.toNat - d.rowsLeft))
  else .ok d.rule

/-- A rule whose effect is written to the end. -/
def checkEffect (rule : Rule) : Except Problem Rule :=
  if rule.hasMap && rule.effect.size ≠ rule.area then .error .missingEffectPattern
  else .ok rule

open Builder (reeffected)

/-- What a line of a block can make of the rule: a match block changes what is matched, an
effect block what is done, and in a rule set no effect makes the rule run always. -/
inductive BlockChange (inRuleset : Bool) (d : Draft) : Rule → Prop
  | matching (pattern : Option (Array MatchSymbol)) (conditions : List Expr) :
      d.phase = .matching → BlockChange inRuleset d { d.rule with pattern, conditions }
  | effect (written : Rule) : d.phase = .effect →
      (inRuleset = true → written.always = d.rule.always) →
      BlockChange inRuleset d (reeffected d.rule written)

variable {inRuleset : Bool} {d d' : Draft} {text : List Char}

theorem blockLine_ok (inside : d.phase ≠ .between) (h : d.blockLine inRuleset text = .ok d') :
    ∃ rule patterned rowsLeft, BlockChange inRuleset d rule ∧
      d' = { d with rule, patterned, rowsLeft } := by
  have matches_of_ne : d.phase ≠ .effect → d.phase = .matching := by
    intro other
    cases phase : d.phase with
    | matching => rfl
    | effect => exact absurd phase other
    | between => exact absurd phase inside
  unfold blockLine at h
  split at h
  · rcases (patternRow_ok h).2 with ⟨effect, rfl⟩ | ⟨other, rfl⟩
    · let row := (Text.words text).map EffectSymbol.ofToken
      exact ⟨_, _, _, .effect { d.rule with effect := d.rule.effect ++ row } effect fun _ => rfl,
        rfl⟩
    · exact ⟨_, _, _, .matching _ d.rule.conditions (matches_of_ne other), rfl⟩
  split at h
  · rcases (beginPattern_ok h).2 with ⟨effect, rfl⟩ | ⟨other, rfl⟩
    · let steps := d.rule.steps ++ [.map]
      exact ⟨_, _, _, .effect { d.rule with effect := #[], steps } effect fun _ => rfl, rfl⟩
    · exact ⟨_, _, _, .matching _ d.rule.conditions (matches_of_ne other), rfl⟩
  split at h
  · rename_i matching
    obtain ⟨-, condition, -, rfl⟩ := matchLine_ok h
    exact ⟨_, _, _, .matching d.rule.pattern _ matching, rfl⟩
  · rename_i notMatching
    have effect : d.phase = .effect := by
      by_contra other
      exact notMatching (matches_of_ne other)
    obtain ⟨changed, change, rfl⟩ := effectLine_ok h
    refine ⟨_, _, _, ?_, rfl⟩
    cases change with
    | nonBreak => exact .effect { d.rule with nonBreak := true } effect fun _ => rfl
    | always outside =>
      refine .effect { d.rule with always := true } effect fun inside => ?_
      rw [outside] at inside
      cases inside
    | shift offset => exact .effect { d.rule with shift := some offset } effect fun _ => rfl
    | @steps added written =>
      exact .effect { d.rule with steps := d.rule.steps ++ added } effect fun _ => rfl

theorem phase_blockLine (inside : d.phase ≠ .between)
    (h : d.blockLine inRuleset text = .ok d') : d'.phase = d.phase := by
  obtain ⟨rule, patterned, rowsLeft, -, rfl⟩ := blockLine_ok inside h
  rfl

end Draft

/-- The probability of a rule whose effect block starts with a line. -/
def effectProbability (rule : Rule) (line : List Char) : Except Problem Float := do
  match ← Form.effectBlock.read line with
  | none => return rule.probability
  | some p => checkProbability p.toFloat

namespace Block

/-- The rule that a match block opens. -/
def readMatch (inRuleset : Bool) (block : Block "match") : Except Problem Rule := do
  let rule ← Script.readMatch block.header
  let d ← block.inner.foldlM (Draft.blockLine inRuleset) { rule, phase := .matching }
  d.ended

/-- The rule that an effect block makes of an open one. -/
def readEffect (inRuleset : Bool) (rule : Rule) (block : Block "->") : Except Problem Rule := do
  let probability ← effectProbability rule block.header
  let d ← block.inner.foldlM (Draft.blockLine inRuleset)
    { rule := { rule with probability }, phase := .effect }
  Draft.checkEffect (← d.ended)

end Block

namespace Parallel

variable {ε ε' ε'' α δ : Type} {R : α → δ → Prop}

theorem mapError {m : Except ε α} {n : Except ε' δ} (h : Parallel R m n) (f : ε' → ε'') :
    Parallel R m (n.mapError f) := by
  cases h with
  | ok related => exact .ok related
  | error e e' => exact .error e (f e')

theorem exists_left {m : Except ε α} {n : Except ε' δ} (h : Parallel R m n) {y : δ}
    (found : n = .ok y) : ∃ x, m = .ok x ∧ R x y := by
  subst found
  cases h with
  | ok related => exact ⟨_, rfl, related⟩

theorem exists_right {m : Except ε α} {n : Except ε' δ} (h : Parallel R m n) {x : α}
    (found : m = .ok x) : ∃ y, n = .ok y ∧ R x y := by
  subst found
  cases h with
  | ok related => exact ⟨_, rfl, related⟩

/-- What is known of the results on one side. -/
theorem known {P : α → Prop} {m : Except ε α} {n : Except ε' δ} (h : Parallel R m n)
    (holds : ∀ x, m = .ok x → P x) : Parallel (fun x y => P x ∧ R x y) m n := by
  cases h with
  | ok related => exact .ok ⟨holds _ rfl, related⟩
  | error e e' => exact .error e e'

end Parallel

namespace Builder

variable {b : Builder} {index : Nat} {text : List Char} {d : Draft} {rule : Rule}

theorem lines_singleton (text : List Char) :
    b.lines index [text] = (b.line index text).mapError (fun problem => (index, problem)) := by
  rw [lines_cons]
  cases b.line index text <;> rfl

/-! ## Inside of a block -/

theorem line_inside (draft : b.draft = some d) (inside : d.phase ≠ .between)
    (other : text ≠ closing) (index : Nat) :
    Parallel (fun d' b' => ∃ effectLine, b' = { b with draft := some d', effectLine })
      (d.blockLine b.inRuleset text) (b.line index text) := by
  have apart : text ≠ ['\x7d'] := other
  unfold Draft.blockLine line
  simp only [draft]
  have stays : ∀ d', ∃ effectLine, { b with draft := some d' } =
      { b with draft := some d', effectLine } := fun d' => ⟨b.effectLine, rfl⟩
  by_cases rows : 0 < d.rowsLeft
  · rw [if_pos rows, if_pos rows, if_neg apart]
    cases d.patternRow text with
    | error problem => exact .error _ _
    | ok d' => exact .ok (stays d')
  rw [if_neg rows, if_neg rows, if_neg apart, if_neg inside]
  unfold Builder.blockLine
  by_cases opens : text = "pattern".toList
  · rw [if_pos opens, if_pos opens]
    cases d.beginPattern with
    | error problem => exact .error _ _
    | ok d' => exact .ok ⟨_, rfl⟩
  rw [if_neg opens, if_neg opens]
  by_cases matching : d.phase = .matching
  · rw [if_pos matching, if_pos matching]
    cases d.matchLine text with
    | error problem => exact .error _ _
    | ok d' => exact .ok (stays d')
  · rw [if_neg matching, if_neg matching]
    cases d.effectLine b.inRuleset text with
    | error problem => exact .error _ _
    | ok d' => exact .ok (stays d')

/-- The lines of a block change the draft alone, up to where an effect was noted. -/
theorem lines_inside {inner : List (List Char)} (draft : b.draft = some d)
    (inside : d.phase ≠ .between) (apart : closing ∉ inner) (index : Nat) :
    Parallel
      (fun d' b' => d'.phase = d.phase ∧
        ∃ effectLine, b' = { b with draft := some d', effectLine })
      (inner.foldlM (Draft.blockLine b.inRuleset) d) (b.lines index inner) := by
  induction inner generalizing b d index with
  | nil =>
    refine .ok ⟨rfl, b.effectLine, ?_⟩
    rw [← draft]
  | cons text rest ih =>
    obtain ⟨other, apart⟩ := not_or.mp (mt List.mem_cons.mpr apart)
    rw [List.foldlM_cons, lines_cons]
    have first := (line_inside draft inside (Ne.symm other) index).known
      fun d' read => Draft.phase_blockLine inside read
    refine (first.mapError _).bind ?_
    rintro d' _ ⟨phase, effectLine, rfl⟩
    have later := ih (b := { b with draft := some d', effectLine }) rfl (by rwa [phase]) apart
      (index + 1)
    refine later.mono ?_
    rintro d'' _ ⟨phase', effectLine', rfl⟩
    exact ⟨phase'.trans phase, effectLine', rfl⟩

/-- Outside the blocks of rules a line is read by its first word, unless it closes a block. -/
theorem line_eq_outerLine (outside : b.Outside) (other : text ≠ closing) :
    b.line index text = b.outerLine index text := by
  have apart : text ≠ ['\x7d'] := other
  unfold line
  cases draft : b.draft with
  | none =>
    dsimp only
    rw [if_neg apart]
  | some d =>
    obtain ⟨rows, between⟩ := outside d draft
    simp only [rows, Nat.lt_irrefl, if_false, if_neg apart, between, if_true]

/-- A line that starts with a word closes no block. -/
theorem line_of_word (outside : b.Outside) {word : String} (starts : keyword text = word)
    (nonempty : word ≠ "") : b.line index text = b.outerLine index text := by
  refine line_eq_outerLine outside ?_
  rintro rfl
  exact nonempty (starts.symm.trans (by decide))

/-- Where rules may stand, the lines that make rules are read as such. -/
theorem line_eq_ruleLine (admits : b.AdmitsRules) (outside : b.Outside)
    (word : keyword text ∈ ["match", "->", "repeat", "inherit"]) :
    b.line index text = b.ruleLine index text := by
  have body : b.bodyLine index text = b.ruleLine index text := by
    unfold bodyLine
    unfold AdmitsRules Builder.inRuleset part? at admits
    cases scope : b.scope with
    | file => simp [scope] at admits
    | ruleset name rules => rfl
    | atom atom part =>
      rw [scope] at admits
      obtain rfl : part = some .update := by simpa using admits
      rfl
  have other : text ≠ closing := by
    rintro rfl
    revert word
    decide
  rw [line_eq_outerLine outside other, ← body]
  unfold outerLine
  generalize keyword text = first at word
  split
  all_goals first | rfl | exact absurd word (by decide)

section RuleLines

variable (admits : b.AdmitsRules) (outside : b.Outside)

include admits outside

theorem line_beginMatch (word : keyword text = "match") :
    b.line index text = b.beginMatch text := by
  rw [line_eq_ruleLine admits outside (by rw [word]; decide), ruleLine, word]
  rfl

theorem line_beginEffect (word : keyword text = "->") :
    b.line index text = b.beginEffect index text := by
  rw [line_eq_ruleLine admits outside (by rw [word]; decide), ruleLine, word]
  rfl

theorem line_repeatBlock (word : keyword text = "repeat") :
    b.line index text = b.repeatBlock text := by
  rw [line_eq_ruleLine admits outside (by rw [word]; decide), ruleLine, word]
  rfl

theorem line_inheritRules (word : keyword text = "inherit") :
    b.line index text = b.inherit text := by
  rw [line_eq_ruleLine admits outside (by rw [word]; decide), ruleLine, word]
  rfl

end RuleLines

/-! ## Whole blocks -/

theorem line_closing (draft : b.draft = some d) :
    b.line index closing = d.ended >>= fun _ => b.close := by
  unfold Draft.ended line closing
  simp only [draft, if_true]
  split <;> rfl

theorem line_endMatch (draft : b.draft = some d) (matching : d.phase = .matching) :
    Parallel (fun rule b' => b' = { b with draft := some { rule } }) d.ended
      (b.line index closing) := by
  rw [line_closing draft]
  unfold Draft.ended close
  split
  · exact .error _ _
  · rename_i rows
    obtain ⟨rule, phase, patterned, rowsLeft⟩ := d
    obtain rfl : rowsLeft = 0 := Nat.eq_zero_of_not_pos rows
    obtain rfl : phase = .matching := matching
    rw [draft]
    exact .ok rfl

/-- Where a rule is finished it is checked first. -/
theorem finish_eq (b : Builder) (rule : Rule) :
    b.finish rule = (Draft.checkEffect rule).map fun rule => (b.refer rule).pushNew rule := by
  unfold finish Draft.checkEffect
  split <;> rfl

theorem line_endEffect (draft : b.draft = some d) (effect : d.phase = .effect) :
    Parallel (fun rule b' => b' = (refer { b with draft := none } rule).pushNew rule)
      (d.ended >>= Draft.checkEffect) (b.line index closing) := by
  rw [line_closing draft]
  unfold Draft.ended close
  split
  · exact .error _ _
  · simp only [draft, effect]
    show Parallel _ (Draft.checkEffect d.rule) (finish { b with draft := none } d.rule)
    rw [finish_eq]
    cases Draft.checkEffect d.rule with
    | error problem => exact .error _ _
    | ok rule => exact .ok rfl

/-- A match block opens the rule that it says. -/
theorem lines_matchBlock (draft : b.draft = none) (admits : b.AdmitsRules)
    (block : Block "match") (index : Nat) :
    Parallel (fun rule b' => ∃ effectLine, b' = { b with draft := some { rule }, effectLine })
      (block.readMatch b.inRuleset) (b.lines index block.texts) := by
  have header : Parallel
      (fun rule b' => b' = { b with draft := some { rule, phase := .matching } })
      (readMatch block.header) (b.line index block.header) := by
    rw [line_beginMatch admits (outside_of_free draft) block.named, Answers.beginMatch_eq, draft]
    cases readMatch block.header with
    | error problem => exact .error _ _
    | ok rule => exact .ok rfl
  unfold Block.readMatch Block.texts
  rw [lines_cons]
  refine (header.mapError _).bind ?_
  rintro rule _ rfl
  rw [lines_append]
  refine (lines_inside (b := { b with draft := some { rule, phase := .matching } }) rfl
    nofun block.apart _).bind ?_
  rintro d _ ⟨phase, effectLine, rfl⟩
  rw [lines_singleton]
  refine ((line_endMatch rfl phase).mapError _).mono ?_
  rintro rule _ rfl
  exact ⟨effectLine, rfl⟩

/-- An effect block finishes the rule that it makes of the open one. -/
theorem lines_effectBlock (draft : b.draft = some { rule }) (admits : b.AdmitsRules)
    (block : Block "->") (index : Nat) :
    Parallel (fun rule b' => ∃ effectLine,
        b' = (refer { b with draft := none, effectLine } rule).pushNew rule)
      (block.readEffect b.inRuleset rule) (b.lines index block.texts) := by
  have header : Parallel
      (fun probability b' => b' = { b with
        draft := some { rule := { rule with probability }, phase := .effect }
        effectLine := index })
      (effectProbability rule block.header) (b.line index block.header) := by
    rw [line_beginEffect admits (outside_of_between draft rfl rfl) block.named]
    unfold beginEffect effectProbability
    refine .read _ fun written => ?_
    rw [draft]
    cases written with
    | none => exact .ok rfl
    | some p =>
      dsimp only
      cases checkProbability p.toFloat with
      | error problem => exact .error _ _
      | ok probability => exact .ok rfl
  unfold Block.readEffect Block.texts
  rw [lines_cons]
  refine (header.mapError _).bind ?_
  rintro probability _ rfl
  rw [lines_append]
  refine (lines_inside (b := { b with
      draft := some { rule := { rule with probability }, phase := .effect }
      effectLine := index }) rfl nofun block.apart _).bind ?_
  rintro d _ ⟨phase, effectLine, rfl⟩
  rw [lines_singleton]
  refine ((line_endEffect rfl phase).mapError _).mono ?_
  rintro rule _ rfl
  exact ⟨effectLine, rfl⟩

/-! ## Repeated blocks -/

/-- A finished rule does not change what may stand after it. -/
theorem place_pushNew (b : Builder) (rule : Rule) :
    (b.pushNew rule).inRuleset = b.inRuleset ∧ (b.pushNew rule).part? = b.part? := by
  unfold pushNew push Builder.inRuleset part?
  cases b.scope with
  | file => exact ⟨rfl, rfl⟩
  | ruleset name rules => exact ⟨rfl, rfl⟩
  | atom atom part => cases rule.always <;> exact ⟨rfl, rfl⟩

theorem AdmitsRules.pushNew (admits : b.AdmitsRules) : (b.pushNew rule).AdmitsRules := by
  unfold AdmitsRules
  rw [(place_pushNew b rule).1, (place_pushNew b rule).2]
  exact admits

variable {previous : Rule}

/-- A line repeats a block of the previous rule, each in its place. -/
theorem repeatBlock_ok {kind : Form.Repeated} {b' : Builder}
    (read : Form.repetition.read text = .ok kind) (h : b.repeatBlock text = .ok b') :
    ∃ previous, b.previous = some previous ∧ (kind = .matching → b.draft = none) ∧
      (kind = .effect → b.draft.isSome) := by
  unfold repeatBlock at h
  rw [read] at h
  dsimp only [bind, Except.bind] at h
  split at h
  · cases h
  rename_i previous before
  refine ⟨previous, before, ?_, ?_⟩
  · rintro rfl
    dsimp only at h
    split at h
    · cases h
    · rename_i closed
      simpa using closed
  · rintro rfl
    dsimp only at h
    split at h
    · cases h
    · rename_i draft
      rw [draft]
      rfl

theorem line_repeatMatch (draft : b.draft = none) (admits : b.AdmitsRules)
    (before : b.previous = some previous) (read : Form.repetition.read text = .ok .matching) :
    b.line index text = .ok { b with draft := some { rule := rematched previous } } := by
  rw [line_repeatBlock admits (outside_of_free draft) (keyword_of_repetition read)]
  unfold repeatBlock
  rw [read, before, draft]
  rfl

theorem line_repeatEffect (draft : b.draft = some { rule }) (admits : b.AdmitsRules)
    (before : b.previous = some previous) (read : Form.repetition.read text = .ok .effect)
    (index : Nat) :
    b.line index text = (Draft.checkEffect (reeffected rule previous)).map fun rule =>
      (refer { b with draft := none } rule).pushNew rule := by
  rw [line_repeatBlock admits (outside_of_between draft rfl rfl) (keyword_of_repetition read),
    ← finish_eq]
  unfold repeatBlock
  rw [read, before, draft]
  rfl

end Builder

end FallingSand.Script
