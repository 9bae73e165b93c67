import FallingSand.Script.Rules

/-!
# What a line does to a draft

Lines that are accepted inside the blocks of a rule, by what they leave of the
draft. The relations say all that there is to know of the result: a pattern is
opened or gets a row, a condition is added, and the effect gets a flag, a shift
or steps that are compiled for the anchor of the rule.
-/

namespace FallingSand.Script

open FallingSand.Expr (Mode)

/-- Of a computation with two parts that succeeds both parts do. -/
theorem bind_eq_ok {ε α δ : Type} {m : Except ε α} {f : α → Except ε δ} {y : δ} :
    (m >>= f) = .ok y ↔ ∃ x, m = .ok x ∧ f x = .ok y := by
  cases m with
  | error e => exact ⟨fun h => (nomatch h), fun ⟨_, h, _⟩ => (nomatch h)⟩
  | ok x => exact ⟨fun h => ⟨x, rfl, h⟩, fun ⟨_, found, h⟩ => by cases found; exact h⟩

theorem mapError_eq_ok {ε ε' α : Type} {m : Except ε α} {f : ε → ε'} {x : α} :
    m.mapError f = .ok x ↔ m = .ok x := by
  cases m with
  | error e => exact ⟨fun h => (nomatch h), fun h => (nomatch h)⟩
  | ok _ => exact ⟨fun h => by cases h; rfl, fun h => by cases h; rfl⟩

theorem compileExpr_eq_ok {mode : Mode} {text : List Char} {e : Expr} :
    compileExpr mode text = .ok e ↔ Expr.compile mode text = .ok e := mapError_eq_ok

/-! ## Steps of an effect -/

/-- The steps that a line of an effect block adds. -/
inductive Written (rule : Rule) : List Step → Prop
  | bind (symbol : String) {x y : UInt8} : x < rule.width → y < rule.height →
      Written rule [.bind symbol (⟨Int32.ofNat x.toNat, Int32.ofNat y.toNat⟩ - rule.anchor)]
  | update (kind : Update) (ref : Expr.PropertyRef) {text : List Char} {value : Expr} :
      Expr.compile (.rule rule.anchor) text = .ok value →
      Written rule [.update kind ref.name ((Mode.rule rule.anchor).offset ref.coordinate) value]
  | clamp (ref : Expr.PropertyRef) {low high : List Char} {atLeast atMost : Expr} :
      Expr.compile (.rule rule.anchor) low = .ok atLeast →
      Expr.compile (.rule rule.anchor) high = .ok atMost →
      Written rule [
        .update .atLeast ref.name ((Mode.rule rule.anchor).offset ref.coordinate) atLeast,
        .update .atMost ref.name ((Mode.rule rule.anchor).offset ref.coordinate) atMost]

/-- What a line of an effect block makes of the rule, patterns apart. -/
inductive EffectChange (inRuleset : Bool) (rule : Rule) : Rule → Prop
  | nonBreak : EffectChange inRuleset rule { rule with nonBreak := true }
  | always : inRuleset = false → EffectChange inRuleset rule { rule with always := true }
  | shift (offset : Vec) : EffectChange inRuleset rule { rule with shift := some offset }
  | steps {added : List Step} : Written rule added →
      EffectChange inRuleset rule { rule with steps := rule.steps ++ added }

namespace Draft

variable {d d' : Draft} {line : List Char}

theorem beginPattern_ok (h : d.beginPattern = .ok d') : d.patterned = false ∧
    ((d.phase = .effect ∧ d' = { d with
        rule := { d.rule with effect := #[], steps := d.rule.steps ++ [.map] }
        patterned := true, rowsLeft := d.rule.height.toNat }) ∨
      (d.phase ≠ .effect ∧ d' = { d with
        rule := { d.rule with pattern := some #[] }
        patterned := true, rowsLeft := d.rule.height.toNat })) := by
  unfold beginPattern at h
  split at h
  · cases h
  rename_i unpatterned
  refine ⟨by simpa using unpatterned, ?_⟩
  cases h
  cases d.phase with
  | effect => exact .inl ⟨rfl, rfl⟩
  | between => exact .inr ⟨by decide, rfl⟩
  | matching => exact .inr ⟨by decide, rfl⟩

theorem patternRow_ok (h : d.patternRow line = .ok d') :
    (Text.words line).length = d.rule.width.toNat ∧
    ((d.phase = .effect ∧ d' = { d with
        rule := { d.rule with
          effect := d.rule.effect ++ (Text.words line).map EffectSymbol.ofToken }
        rowsLeft := d.rowsLeft - 1 }) ∨
      (d.phase ≠ .effect ∧ d' = { d with
        rule := { d.rule with
          pattern := some (d.rule.pattern.getD #[] ++ (Text.words line).map MatchSymbol.ofToken) }
        rowsLeft := d.rowsLeft - 1 })) := by
  unfold patternRow at h
  dsimp only at h
  split at h
  · cases h
  rename_i complete
  refine ⟨Decidable.not_not.mp complete, ?_⟩
  cases h
  cases d.phase with
  | effect => exact .inl ⟨rfl, rfl⟩
  | between => exact .inr ⟨by decide, rfl⟩
  | matching => exact .inr ⟨by decide, rfl⟩

theorem matchLine_ok (h : d.matchLine line = .ok d') : ∃ text condition,
    Expr.compile (.rule d.rule.anchor) text = .ok condition ∧
      d' = { d with rule := { d.rule with conditions := d.rule.conditions ++ [condition] } } := by
  unfold matchLine at h
  split at h
  · obtain ⟨text, -, h⟩ := bind_eq_ok.mp h
    obtain ⟨condition, compiled, h⟩ := bind_eq_ok.mp h
    cases h
    exact ⟨text, condition, compileExpr_eq_ok.mp compiled, rfl⟩
  · cases h

theorem effectLine_ok {inRuleset : Bool} (h : d.effectLine inRuleset line = .ok d') :
    ∃ rule, EffectChange inRuleset d.rule rule ∧ d' = { d with rule } := by
  unfold effectLine at h
  dsimp only at h
  split at h
  · cases h
    exact ⟨_, .nonBreak, rfl⟩
  split at h
  · split at h
    · cases h
    · rename_i outside
      cases h
      exact ⟨_, .always (Bool.not_eq_true _ ▸ outside), rfl⟩
  split at h
  · obtain ⟨⟨symbol, x, y⟩, -, h⟩ := bind_eq_ok.mp h
    dsimp only at h
    split at h
    · cases h
    · rename_i inside
      cases h
      simp only [Bool.or_eq_true, decide_eq_true_eq, not_or, UInt8.not_le] at inside
      exact ⟨_, .steps (.bind symbol inside.1 inside.2), rfl⟩
  · obtain ⟨⟨ref, text⟩, -, h⟩ := bind_eq_ok.mp h
    obtain ⟨value, compiled, h⟩ := bind_eq_ok.mp h
    cases h
    exact ⟨_, .steps (.update .set ref (compileExpr_eq_ok.mp compiled)), rfl⟩
  · obtain ⟨⟨ref, text⟩, -, h⟩ := bind_eq_ok.mp h
    obtain ⟨value, compiled, h⟩ := bind_eq_ok.mp h
    cases h
    exact ⟨_, .steps (.update .increase ref (compileExpr_eq_ok.mp compiled)), rfl⟩
  · obtain ⟨⟨ref, bounds⟩, -, h⟩ := bind_eq_ok.mp h
    dsimp only at h
    split at h
    · obtain ⟨between, first, h⟩ := bind_eq_ok.mp h
      obtain ⟨low, compiledLow, first⟩ := bind_eq_ok.mp first
      cases first
      obtain ⟨high, compiledHigh, h⟩ := bind_eq_ok.mp h
      cases h
      refine ⟨_, .steps (.clamp ref (compileExpr_eq_ok.mp compiledLow)
        (compileExpr_eq_ok.mp compiledHigh)), ?_⟩
      simp only [addStep, targetOffset, List.append_assoc, List.cons_append, List.nil_append]
    · cases h
  · obtain ⟨offset, -, h⟩ := bind_eq_ok.mp h
    cases h
    exact ⟨_, .shift offset, rfl⟩
  · cases h

end Draft

end FallingSand.Script
