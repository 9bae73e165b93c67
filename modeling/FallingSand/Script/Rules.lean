import FallingSand.Script.Atoms

/-!
# Writing rules

What the lines of rule sets and of the section `update` mean. A rule is written
as a match block and an effect block; `repeat` takes over a block of the rule
before it, and `inherit` copies finished rules.
-/

namespace FallingSand.Script

namespace Draft

/-- Starts the pattern of the open block. -/
def beginPattern (d : Draft) : Except Problem Draft :=
  if d.patterned then .error .duplicatePattern
  else
    let rule := match d.phase with
      | .effect => { d.rule with effect := #[], steps := d.rule.steps ++ [.map] }
      | _ => { d.rule with pattern := some #[] }
    .ok { d with rule, patterned := true, rowsLeft := d.rule.height.toNat }

/-- A row of the pattern of the open block. -/
def patternRow (d : Draft) (line : List Char) : Except Problem Draft :=
  let tokens := Text.words line
  let width := d.rule.width.toNat
  if tokens.length ≠ width then .error (.rowWidth width tokens.length)
  else
    let rule := match d.phase with
      | .effect =>
        { d.rule with effect := d.rule.effect ++ tokens.map EffectSymbol.ofToken }
      | _ =>
        { d.rule with
          pattern := some (d.rule.pattern.getD #[] ++ tokens.map MatchSymbol.ofToken) }
    .ok { d with rule, rowsLeft := d.rowsLeft - 1 }

/-- The offset of the target of a step. -/
def targetOffset (d : Draft) (ref : Expr.PropertyRef) : Vec :=
  (Expr.Mode.rule d.rule.anchor).offset ref.coordinate

def addStep (d : Draft) (step : Step) : Draft :=
  { d with rule := { d.rule with steps := d.rule.steps ++ [step] } }

/-- A line of a match block, patterns apart. -/
def matchLine (d : Draft) (line : List Char) : Except Problem Draft := do
  if keyword line = "eval" then
    let text ← Form.condition.read line
    let condition ← compileExpr (.rule d.rule.anchor) text
    return { d with rule := { d.rule with conditions := d.rule.conditions ++ [condition] } }
  else throw (misplaced line)

/-- A line of an effect block, patterns apart. -/
def effectLine (d : Draft) (inRuleset : Bool) (line : List Char) : Except Problem Draft := do
  let mode := Expr.Mode.rule d.rule.anchor
  let update (kind : Update) (ref : Expr.PropertyRef) (text : List Char)
      (d : Draft) : Except Problem Draft := do
    return d.addStep (.update kind ref.name (d.targetOffset ref) (← compileExpr mode text))
  if line = "non-break".toList then
    return { d with rule := { d.rule with nonBreak := true } }
  else if line = "always-run".toList then
    if inRuleset then throw (.misplaced line)
    else return { d with rule := { d.rule with always := true } }
  else match keyword line with
    | "def" =>
      let (symbol, x, y) ← Form.bind.read line
      let rule := d.rule
      if rule.width ≤ x || rule.height ≤ y then
        throw (.bindOutsideBox x y rule.width rule.height)
      else
        let coordinate : Vec := ⟨Int32.ofNat x.toNat, Int32.ofNat y.toNat⟩
        return d.addStep (.bind symbol (coordinate - rule.anchor))
    | "set" =>
      let (ref, text) ← Form.set.read line
      update .set ref text d
    | "inc" =>
      let (ref, text) ← Form.increase.read line
      update .increase ref text d
    | "clamp" =>
      let (ref, bounds) ← Form.clamp.read line
      match splitTopLevel bounds with
      | [low, high] => update .atMost ref high (← update .atLeast ref low d)
      | _ => throw (.syntaxError Form.clamp.description line)
    | "shift" =>
      let shift ← Form.shift.read line
      return { d with rule := { d.rule with shift := some shift } }
    | _ => throw (misplaced line)

end Draft

namespace Builder

/-- Opens a match block and with it a rule. -/
def beginMatch (b : Builder) (line : List Char) : Except Problem Builder := do
  if b.draft.isSome then throw .ruleOpen
  let header ← Form.matchBlock.read line
  let { x, y, width, height, .. } := header
  if width = 0 || height = 0 || width ≤ x || height ≤ y then
    throw (.invalidBox x y width height)
  let symmetry ← match header.symmetry with
    | none => pure Symmetry.none
    | some letters =>
      match Symmetry.read? letters with
      | some symmetry => pure symmetry
      | none => throw (.invalidSymmetry letters)
  let anchor : Vec := ⟨Int32.ofNat x.toNat, Int32.ofNat y.toNat⟩
  let rule := { Rule.blank width height anchor with symmetry }
  return { b with draft := some { rule, phase := .matching } }

/-- Opens the effect block of the rule on line `index`. -/
def beginEffect (b : Builder) (index : Nat) (line : List Char) : Except Problem Builder := do
  let probability ← Form.effectBlock.read line
  match b.draft with
  | none => throw (.misplaced "->".toList)
  | some d =>
    let probability ← match probability with
      | none => pure d.rule.probability
      | some p => checkProbability p.toFloat
    let draft := { d with
      rule := { d.rule with probability }, phase := .effect, patterned := false }
    return { b with draft := some draft, effectLine := index }

/-- Uses a block of the previous rule again. A match block starts a new rule; an
effect block, with all that belongs to it, finishes the open one. -/
def repeatBlock (b : Builder) (line : List Char) : Except Problem Builder := do
  let kind ← Form.repetition.read line
  match b.previous with
  | none => throw .nothingToRepeat
  | some previous =>
    match kind with
    | .matching =>
      if b.draft.isSome then throw .ruleOpen
      let rule := { Rule.blank previous.width previous.height previous.anchor with
        pattern := previous.pattern
        conditions := previous.conditions
        symmetry := previous.symmetry }
      return { b with draft := some { rule } }
    | .effect =>
      match b.draft with
      | none => throw (.misplaced "repeat effect".toList)
      | some d =>
        let rule := { d.rule with
          effect := previous.effect
          steps := previous.steps
          probability := previous.probability
          nonBreak := previous.nonBreak
          always := previous.always
          shift := previous.shift }
        Builder.finish { b with draft := none } rule

/-- The probability that the flags of an inheritance give, if they give one. -/
def flaggedProbability : List (String × List Char) → Except Problem (Option Float)
  | [] => .ok none
  | (flag, value) :: rest => do
    if flag = "P" then
      let p ← readProbability "-P" value
      return (← flaggedProbability rest).or (some p)
    else throw (.unknownFlag flag)

/-- Copies the rules of a name, as normal rules with new numbers. -/
def inherit (b : Builder) (line : List Char) : Except Problem Builder := do
  if b.draft.isSome then throw .ruleOpen
  let (name, flags) ← Form.inherit.read line
  let probability ← flaggedProbability flags
  match b.rulesNamed? name with
  | none => return { b with warnings := b.warnings ++ [.nothingInherited name] }
  | some rules =>
    let copy (rule : Rule) : Rule :=
      { rule with always := false, probability := probability.getD rule.probability }
    return rules.foldl (fun b rule => b.pushNew (copy rule)) b

def ruleLine (b : Builder) (index : Nat) (line : List Char) : Except Problem Builder :=
  match keyword line with
  | "match" => b.beginMatch line
  | "->" => b.beginEffect index line
  | "repeat" => b.repeatBlock line
  | "inherit" => b.inherit line
  | "ext" =>
    match b.scope with
    | .atom atom part => do return { b with scope := .atom (← addExtension line atom) part }
    | _ => .error (misplaced line)
  | _ => .error (misplaced line)

end Builder

end FallingSand.Script
