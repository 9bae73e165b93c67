import FallingSand.Proofs.Script.Blocks

/-!
# The rules that blocks make

A match block writes what is matched and leaves the effect blank; an effect block writes
what is done and leaves what is matched alone. So what an effect block says of one rule it
says of every rule with the same box (`Block.readEffect_congr`), and what a block says in a
rule set it says everywhere.
-/

namespace FallingSand.Script

/-! ## What blocks leave alone -/

theorem readMatch_header {line : List Char} {rule : Rule} (h : readMatch line = .ok rule) :
    ∃ header symmetry, Form.matchBlock.read line = .ok header ∧
      rule = { Rule.blank header.width header.height
        ⟨Int32.ofNat header.x.toNat, Int32.ofNat header.y.toNat⟩ with symmetry } := by
  unfold readMatch at h
  obtain ⟨header, read, h⟩ := bind_eq_ok.mp h
  dsimp only at h
  split at h
  · cases h
  split at h
  · cases h
    exact ⟨header, _, read, rfl⟩
  · split at h
    · cases h
      exact ⟨header, _, read, rfl⟩
    · cases h

namespace Block

variable {inRuleset : Bool} {d d' : Draft} {rule rule' m : Rule}

/-- What every line of a block keeps of the rule is kept by all of them. -/
theorem invariant_of_inner {I : Rule → Prop} {inner : List (List Char)}
    (inside : d.phase ≠ .between)
    (step : ∀ {e rule}, e.phase = d.phase → Draft.BlockChange inRuleset e rule → I e.rule → I rule)
    (start : I d.rule) (h : inner.foldlM (Draft.blockLine inRuleset) d = .ok d') :
    I d'.rule := by
  induction inner generalizing d with
  | nil =>
    cases h
    exact start
  | cons text rest ih =>
    rw [List.foldlM_cons] at h
    obtain ⟨next, read, h⟩ := bind_eq_ok.mp h
    obtain ⟨rule, patterned, rowsLeft, change, rfl⟩ := Draft.blockLine_ok inside read
    have kept : I rule := step rfl change start
    exact ih (d := { d with rule, patterned, rowsLeft }) inside step kept h

theorem ended_ok {rule : Rule} (h : d.ended = .ok rule) : d.rule = rule := by
  unfold Draft.ended at h
  split at h
  · cases h
  · cases h
    rfl

theorem checkEffect_ok (h : Draft.checkEffect rule = .ok rule') : rule = rule' := by
  unfold Draft.checkEffect at h
  split at h
  · cases h
  · cases h
    rfl

/-- Of the rule of its header a match block changes the pattern and the conditions. -/
theorem readMatch_ok {block : Block "match"} (h : block.readMatch inRuleset = .ok rule) :
    ∃ start pattern conditions, Script.readMatch block.header = .ok start ∧
      rule = { start with pattern, conditions } := by
  unfold readMatch at h
  obtain ⟨start, header, h⟩ := bind_eq_ok.mp h
  obtain ⟨d, read, h⟩ := bind_eq_ok.mp h
  obtain ⟨pattern, conditions, same⟩ : ∃ pattern conditions,
      d.rule = { start with pattern, conditions } := by
    refine invariant_of_inner
      (I := fun rule => ∃ pattern conditions, rule = { start with pattern, conditions })
      (by nofun) ?_ ⟨start.pattern, start.conditions, rfl⟩ read
    rintro e _ matching change ⟨pattern, conditions, same⟩
    cases change with
    | matching pattern conditions => exact ⟨pattern, conditions, by rw [same]⟩
    | effect written effect => cases effect.symm.trans matching
  exact ⟨start, pattern, conditions, header, (ended_ok h).symm.trans same⟩

open Builder (rematched reeffected)

/-- A match block leaves the effect of its rule blank. -/
theorem rematched_of_readMatch {M : Block "match"}
    (h : M.readMatch inRuleset = .ok rule) :
    rematched rule = rule := by
  obtain ⟨start, pattern, conditions, header, rfl⟩ := readMatch_ok h
  obtain ⟨header, symmetry, -, rfl⟩ := readMatch_header header
  rfl

/-- The rule of an effect block is that at its end, if it is complete. -/
theorem readEffect_eq_ok {block : Block "->"} : block.readEffect inRuleset rule = .ok rule' ↔
    ∃ probability d, effectProbability rule block.header = .ok probability ∧
      block.inner.foldlM (Draft.blockLine inRuleset)
        { rule := { rule with probability }, phase := .effect } = .ok d ∧
      d.ended = .ok rule' ∧ Draft.checkEffect rule' = .ok rule' := by
  unfold readEffect
  constructor
  · intro h
    obtain ⟨probability, header, h⟩ := bind_eq_ok.mp h
    obtain ⟨d, read, h⟩ := bind_eq_ok.mp h
    obtain ⟨last, complete, h⟩ := bind_eq_ok.mp h
    obtain rfl := checkEffect_ok h
    exact ⟨probability, d, header, read, complete, h⟩
  · rintro ⟨probability, d, header, read, complete, checked⟩
    exact bind_eq_ok.mpr ⟨probability, header,
      bind_eq_ok.mpr ⟨d, read, bind_eq_ok.mpr ⟨rule', complete, checked⟩⟩⟩

/-- An effect block leaves what is matched. -/
theorem readEffect_ok {block : Block "->"} (h : block.readEffect inRuleset rule = .ok rule') :
    ∃ effect, rule' = reeffected rule effect := by
  obtain ⟨probability, d, -, read, complete, -⟩ := readEffect_eq_ok.mp h
  obtain ⟨effect, same⟩ : ∃ effect, d.rule = reeffected rule effect := by
    refine invariant_of_inner (I := fun changed => ∃ effect, changed = reeffected rule effect)
      (by nofun) ?_ ⟨{ rule with probability }, rfl⟩ read
    rintro e _ isEffect change ⟨effect, same⟩
    cases change with
    | matching pattern conditions matching => cases matching.symm.trans isEffect
    | effect written => exact ⟨written, by rw [same]; rfl⟩
  exact ⟨effect, (ended_ok complete).symm.trans same⟩

theorem checkEffect_of_readEffect {block : Block "->"}
    (h : block.readEffect inRuleset rule = .ok rule') : Draft.checkEffect rule' = .ok rule' := by
  obtain ⟨_, _, -, -, -, checked⟩ := readEffect_eq_ok.mp h
  exact checked

/-- In a rule set no effect makes a rule run always. -/
theorem always_readEffect {block : Block "->"} (normal : rule.always = false)
    (h : block.readEffect true rule = .ok rule') : rule'.always = false := by
  obtain ⟨probability, d, -, read, complete, -⟩ := readEffect_eq_ok.mp h
  have kept : d.rule.always = false := by
    refine invariant_of_inner (I := fun rule => rule.always = false) (by nofun) ?_ normal read
    intro e _ _ change normal
    cases change with
    | matching => exact normal
    | effect written _ kept => exact (kept rfl).trans normal
  rw [← ended_ok complete]
  exact kept

/-! ## Places and boxes -/

theorem effectLine_of_ruleset {text : List Char} (h : d.effectLine true text = .ok d') :
    d.effectLine false text = .ok d' := by
  have always : text ≠ "always-run".toList := by
    rintro rfl
    cases h
  rw [← h]
  unfold Draft.effectLine
  simp only [if_neg always]

theorem blockLine_of_ruleset {text : List Char} (h : d.blockLine true text = .ok d') :
    d.blockLine false text = .ok d' := by
  unfold Draft.blockLine at h ⊢
  by_cases rows : 0 < d.rowsLeft
  · rwa [if_pos rows] at h ⊢
  rw [if_neg rows] at h ⊢
  by_cases opens : text = "pattern".toList
  · rwa [if_pos opens] at h ⊢
  rw [if_neg opens] at h ⊢
  by_cases matching : d.phase = .matching
  · rwa [if_pos matching] at h ⊢
  rw [if_neg matching] at h ⊢
  exact effectLine_of_ruleset h

theorem inner_of_ruleset {inner : List (List Char)}
    (h : inner.foldlM (Draft.blockLine true) d = .ok d') :
    inner.foldlM (Draft.blockLine false) d = .ok d' := by
  induction inner generalizing d with
  | nil => exact h
  | cons text rest ih =>
    rw [List.foldlM_cons] at h ⊢
    obtain ⟨next, read, h⟩ := bind_eq_ok.mp h
    exact bind_eq_ok.mpr ⟨next, blockLine_of_ruleset read, ih h⟩

/-- What a match block says in a rule set it says everywhere. -/
theorem readMatch_of_ruleset {block : Block "match"} (h : block.readMatch true = .ok rule) :
    block.readMatch inRuleset = .ok rule := by
  cases inRuleset with
  | true => exact h
  | false =>
    unfold readMatch at h ⊢
    obtain ⟨start, header, h⟩ := bind_eq_ok.mp h
    obtain ⟨d, read, h⟩ := bind_eq_ok.mp h
    exact bind_eq_ok.mpr ⟨start, header, bind_eq_ok.mpr ⟨d, inner_of_ruleset read, h⟩⟩

theorem readEffect_of_ruleset {block : Block "->"}
    (h : block.readEffect true rule = .ok rule') : block.readEffect inRuleset rule = .ok rule' := by
  cases inRuleset with
  | true => exact h
  | false =>
    obtain ⟨probability, d, header, read, complete⟩ := readEffect_eq_ok.mp h
    exact readEffect_eq_ok.mpr ⟨probability, d, header, inner_of_ruleset read, complete⟩

/-- Rules with the same box and the same anchor. -/
structure SameBox (rule rule' : Rule) : Prop where
  width : rule.width = rule'.width
  height : rule.height = rule'.height
  anchor : rule.anchor = rule'.anchor

theorem effectLine_congr {text : List Char} (box : SameBox m d.rule) :
    Draft.effectLine { d with rule := reeffected m d.rule } inRuleset text =
      (d.effectLine inRuleset text).map fun d' => { d' with rule := reeffected m d'.rule } := by
  obtain ⟨rule, phase, patterned, rowsLeft⟩ := d
  obtain ⟨_, _, _, _, _, _, _, _, _, _, _, _, _⟩ := m
  obtain ⟨_, _, _, _, _, _, _, _, _, _, _, _, _⟩ := rule
  obtain ⟨rfl, rfl, rfl⟩ := box
  unfold Draft.effectLine
  dsimp only [reeffected]
  split
  · rfl
  split
  · split <;> rfl
  split
  · cases Form.bind.read text with
    | error problem => rfl
    | ok parts =>
      dsimp only [bind, Except.bind]
      split <;> rfl
  · cases Form.set.read text with
    | error problem => rfl
    | ok parts =>
      dsimp only [bind, Except.bind]
      cases compileExpr _ parts.2 <;> rfl
  · cases Form.increase.read text with
    | error problem => rfl
    | ok parts =>
      dsimp only [bind, Except.bind]
      cases compileExpr _ parts.2 <;> rfl
  · cases Form.clamp.read text with
    | error problem => rfl
    | ok parts =>
      dsimp only [bind, Except.bind]
      split
      · rename_i low high _
        cases compileExpr _ low with
        | error problem => rfl
        | ok atLeast =>
          dsimp only [pure, Except.pure]
          cases compileExpr _ high <;> rfl
      · rfl
  · cases Form.shift.read text <;> rfl
  · rfl

theorem blockLine_congr {text : List Char} (effect : d.phase = .effect) (box : SameBox m d.rule) :
    Draft.blockLine inRuleset { d with rule := reeffected m d.rule } text =
      (d.blockLine inRuleset text).map fun d' =>
        { d' with rule := reeffected m d'.rule } := by
  have notMatching : d.phase ≠ .matching := by rw [effect]; decide
  unfold Draft.blockLine
  by_cases rows : 0 < d.rowsLeft
  · rw [if_pos rows, if_pos rows]
    unfold Draft.patternRow
    dsimp only [reeffected]
    rw [box.width, effect]
    split <;> rfl
  rw [if_neg rows, if_neg rows]
  by_cases opens : text = "pattern".toList
  · rw [if_pos opens, if_pos opens]
    unfold Draft.beginPattern
    dsimp only [reeffected]
    rw [box.height, effect]
    split <;> rfl
  rw [if_neg opens, if_neg opens, if_neg notMatching, if_neg notMatching]
  exact effectLine_congr box

/-- Lines of a block keep the box. -/
theorem SameBox.change {changed : Rule} (box : SameBox m d.rule)
    (change : Draft.BlockChange inRuleset d changed) : SameBox m changed := by
  cases change <;> exact ⟨box.width, box.height, box.anchor⟩

theorem inner_congr {inner : List (List Char)} (effect : d.phase = .effect)
    (box : SameBox m d.rule) :
    inner.foldlM (Draft.blockLine inRuleset) { d with rule := reeffected m d.rule } =
      (inner.foldlM (Draft.blockLine inRuleset) d).map fun d' =>
        { d' with rule := reeffected m d'.rule } := by
  induction inner generalizing d with
  | nil => rfl
  | cons text rest ih =>
    rw [List.foldlM_cons, List.foldlM_cons, blockLine_congr effect box]
    cases read : d.blockLine inRuleset text with
    | error problem => rfl
    | ok d' =>
      obtain ⟨rule, patterned, rowsLeft, change, rfl⟩ :=
        Draft.blockLine_ok (by rw [effect]; decide) read
      exact ih effect (box.change change)

theorem checkEffect_congr (box : SameBox m rule) :
    Draft.checkEffect (reeffected m rule) = (Draft.checkEffect rule).map (reeffected m) := by
  have area : (reeffected m rule).area = rule.area := by
    unfold Rule.area reeffected
    rw [box.width, box.height]
  have alike : ((reeffected m rule).hasMap &&
        decide ((reeffected m rule).effect.size ≠ (reeffected m rule).area)) =
      (rule.hasMap && decide (rule.effect.size ≠ rule.area)) := by
    rw [area]
    rfl
  unfold Draft.checkEffect
  rw [alike]
  split <;> rfl

theorem ended_congr (box : SameBox m d.rule) :
    Draft.ended { d with rule := reeffected m d.rule } = d.ended.map (reeffected m) := by
  have height : (reeffected m d.rule).height = d.rule.height := box.height
  unfold Draft.ended
  dsimp only
  rw [height]
  split <;> rfl

/-- What an effect block says does not depend on what is matched. -/
theorem readEffect_congr (block : Block "->") (inRuleset : Bool) (box : SameBox m rule) :
    block.readEffect inRuleset (reeffected m rule) =
      (block.readEffect inRuleset rule).map (reeffected m) := by
  unfold readEffect
  have probability : effectProbability (reeffected m rule) block.header =
      effectProbability rule block.header := rfl
  rw [probability]
  cases effectProbability rule block.header with
  | error problem => rfl
  | ok p =>
    have start : SameBox m { rule with probability := p } := ⟨box.1, box.2, box.3⟩
    have inner : block.inner.foldlM (Draft.blockLine inRuleset)
          { rule := reeffected m { rule with probability := p }, phase := .effect } =
        (block.inner.foldlM (Draft.blockLine inRuleset)
          { rule := { rule with probability := p }, phase := .effect }).map
            fun d => { d with rule := reeffected m d.rule } :=
      inner_congr (d := { rule := { rule with probability := p }, phase := .effect }) rfl start
    dsimp only [bind, Except.bind]
    dsimp only [reeffected] at inner ⊢
    rw [inner]
    cases read : block.inner.foldlM (Draft.blockLine inRuleset)
        { rule := { rule with probability := p }, phase := .effect } with
    | error problem => rfl
    | ok d =>
      have last : SameBox m d.rule :=
        invariant_of_inner (I := SameBox m) (by nofun) (fun _ change box => box.change change)
          start read
      have complete := ended_congr last
      dsimp only [Except.map, reeffected] at complete ⊢
      rw [complete]
      cases ended : d.ended with
      | error problem => rfl
      | ok r =>
        rw [ended_ok ended] at last
        exact checkEffect_congr last

end Block

end FallingSand.Script
