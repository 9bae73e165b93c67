import FallingSand.Proofs.Script.BlockRules
import FallingSand.Proofs.Script.Recompiling

/-!
# Repeated blocks stand for what they repeat

After a rule the line `repeat match` does what the match block of that rule would do, and
after another match block with the same box the line `repeat effect` does what its effect
block would do. A script with the line and a script with the block are read in lockstep:
they differ in the numbers of the lines that follow, and in nothing that is made of them.
-/

namespace FallingSand.Script

/-- The anchor, the width and the height that a match block starts with. -/
def Block.box? (block : Block "match") : Option (UInt8 × UInt8 × UInt8 × UInt8) :=
  (Form.matchBlock.read block.header).toOption.map fun header =>
    (header.x, header.y, header.width, header.height)

open Builder (rematched reeffected)

namespace Block

variable {M M' : Block "match"} {E : Block "->"} {inRuleset : Bool} {rule rule' : Rule}

theorem sameBox_of_box? (same : M'.box? = M.box?) (h : M.readMatch inRuleset = .ok rule)
    (h' : M'.readMatch inRuleset = .ok rule') : SameBox rule' rule := by
  obtain ⟨start, pattern, conditions, header, rfl⟩ := readMatch_ok h
  obtain ⟨start', pattern', conditions', header', rfl⟩ := readMatch_ok h'
  obtain ⟨header, symmetry, read, rfl⟩ := readMatch_header header
  obtain ⟨header', symmetry', read', rfl⟩ := readMatch_header header'
  unfold box? at same
  rw [read, read'] at same
  simp only [Except.toOption, Option.map_some, Option.some.injEq, Prod.mk.injEq] at same
  obtain ⟨x, y, width, height⟩ := same
  refine ⟨width, height, ?_⟩
  simp only [Rule.blank, x, y]

/-- Rules that match blocks open differ in what is matched. -/
theorem reeffected_of_readMatch (h : M.readMatch inRuleset = .ok rule)
    (h' : M'.readMatch inRuleset = .ok rule') : reeffected rule' rule = rule' := by
  rw [← rematched_of_readMatch h, ← rematched_of_readMatch h']
  rfl

end Block

namespace Builder

variable {b b' : Builder} {index index' : Nat} {M M' : Block "match"} {E : Block "->"}
  {again : List Char} {rest : List (List Char)} {p : Float}

/-- After a rule a match block can be repeated. -/
theorem lines_afterRule (free : b.draft = none) (admits : b.AdmitsRules) (counted : b.Counted)
    {more more' : List (List Char)}
    (next : ∀ (b' : Builder) rule finished index, b'.draft = none → b'.AdmitsRules → b'.Counted →
      b'.inRuleset = b.inRuleset → M.readMatch b.inRuleset = .ok rule →
      E.readEffect b.inRuleset rule = .ok finished →
      (∃ id, b'.previous = some { finished with id }) →
      Parallel (Retuned [] p) (b'.lines index more) (b'.lines index more')) :
    Parallel (Retuned [] p) (b.lines index (M.texts ++ (E.texts ++ more)))
      (b.lines index (M.texts ++ (E.texts ++ more'))) := by
  rw [lines_append, lines_append]
  refine .first fun b₁ first => ?_
  obtain ⟨rule, matched, l₁, rfl⟩ := (lines_matchBlock free admits M _).exists_left first
  rw [lines_append, lines_append]
  refine .first fun b₂ second => ?_
  obtain ⟨finished, effect, l₂, rfl⟩ :=
    (lines_effectBlock (b := { b with draft := some { rule }, effectLine := l₁ }) rfl admits E
      _).exists_left second
  exact next _ rule finished _ rfl (AdmitsRules.pushNew admits)
    ((counted.lines first).lines second) (place_pushNew _ _).1 matched effect ⟨_, rfl⟩

/-- After a rule the line `repeat match` is its match block. -/
theorem lines_repeatMatch (free : b.draft = none) (admits : b.AdmitsRules) (counted : b.Counted)
    (read : Form.repetition.read again = .ok .matching) :
    Parallel (Retuned [] p) (b.lines index (M.texts ++ (E.texts ++ (M.texts ++ rest))))
      (b.lines index (M.texts ++ (E.texts ++ again :: rest))) := by
  refine lines_afterRule free admits counted ?_
  rintro b' rule finished index free admits counted place matched effect ⟨id, before⟩
  obtain ⟨b₁, block, l, rfl⟩ :=
    (lines_matchBlock free admits M index).exists_right (place ▸ matched)
  -- the effect block has left alone what is matched
  have same : rematched { finished with id } = rule := by
    obtain ⟨_, rfl⟩ := Block.readEffect_ok effect
    exact Block.rematched_of_readMatch matched
  rw [lines_append, block, lines_cons, line_repeatMatch free admits before read, same]
  have counted₁ := counted.lines block
  have opened : Retuned [] p { b' with draft := some { rule }, effectLine := l }
      { b' with draft := some { rule }, effectLine := b'.effectLine } :=
    (Retuned.refl p b').setBlock _ l b'.effectLine
  exact opened.lines_nil counted₁ _ _ rest

/-- After another match block with the same box the line `repeat effect` is the effect block
of the rule. -/
theorem lines_repeatEffect (free : b.draft = none) (admits : b.AdmitsRules)
    (counted : b.Counted) (box : M'.box? = M.box?)
    (read : Form.repetition.read again = .ok .effect) :
    Parallel (Retuned [] p)
      (b.lines index (M.texts ++ (E.texts ++ (M'.texts ++ (E.texts ++ rest)))))
      (b.lines index (M.texts ++ (E.texts ++ (M'.texts ++ again :: rest)))) := by
  refine lines_afterRule free admits counted ?_
  rintro b' rule finished index free admits counted place matched effect ⟨id, before⟩
  rw [lines_append, lines_append]
  refine .first fun b₁ third => ?_
  obtain ⟨rule', matched', l, rfl⟩ := (lines_matchBlock free admits M' _).exists_left third
  rw [place] at matched'
  have counted₁ := counted.lines third
  -- the effect block says the same of both rules
  have effect' : E.readEffect b.inRuleset rule' = .ok (reeffected rule' finished) := by
    have same := Block.readEffect_congr E b.inRuleset
      (Block.sameBox_of_box? box matched matched')
    rw [Block.reeffected_of_readMatch matched matched', effect] at same
    exact same
  let b₁ : Builder := { b' with draft := some { rule := rule' }, effectLine := l }
  obtain ⟨b₂, block, l', rfl⟩ :=
    (lines_effectBlock (b := b₁) rfl admits E (index + M'.texts.length)).exists_right
      (show E.readEffect b'.inRuleset rule' = _ from place ▸ effect')
  have repeated : b₁.line (index + M'.texts.length) again =
      .ok ((refer { b₁ with draft := none } (reeffected rule' finished)).pushNew
        (reeffected rule' finished)) := by
    rw [line_repeatEffect (b := b₁) rfl admits before read]
    show (Draft.checkEffect (reeffected rule' finished)).map _ = _
    rw [Block.checkEffect_of_readEffect effect']
    rfl
  rw [lines_append, block, lines_cons, repeated]
  have counted₂ := counted₁.lines block
  have closed : Retuned [] p { b₁ with draft := none, effectLine := l' }
      { b₁ with draft := none, effectLine := l } :=
    (Retuned.refl p b₁).setBlock none l' l
  have counted₃ : (refer { b₁ with draft := none, effectLine := l' }
      (reeffected rule' finished)).Counted := counted₁.of_same rfl rfl rfl rfl
  have finished₂ : Retuned ([] ++ if False then [b₁.nextId] else []) p _ _ :=
    (closed.refer (rfl : unboundSymbols (reeffected rule' finished) = _)).pushNew counted₃
      (rfl : reeffected rule' finished = _)
  exact finished₂.lines_nil counted₂ _ _ rest

end Builder

/-- Lines that lead into a rule set or a section `update`, with no rule open. -/
def AwaitRule (texts : List (List Char)) : Prop :=
  ∃ b, Builder.lines {} 0 texts = .ok b ∧ b.draft = none ∧ b.AdmitsRules

theorem awaitRule_of_any {texts : List (List Char)}
    (h : ((Builder.lines {} 0 texts).toOption.any fun b =>
      b.draft.isNone && decide b.AdmitsRules) = true) : AwaitRule texts := by
  obtain ⟨b, reached, both⟩ := Builder.exists_of_any h
  rw [Bool.and_eq_true, Option.isNone_iff_eq_none, decide_eq_true_eq] at both
  exact ⟨b, reached, both.1, both.2⟩

/-- Lines that are read in lockstep from where a rule may start make the same world. -/
theorem compile_eq_of_parallel {before : List (List Char)} {more more' : List (List Char)}
    {source source' : List Char} (reads : Reads source (before ++ more))
    (reads' : Reads source' (before ++ more')) (await : AwaitRule before)
    (alike : ∀ b : Builder, b.draft = none → b.AdmitsRules → b.Counted →
      Parallel (Builder.Retuned [] 0) (b.lines before.length more)
        (b.lines before.length more')) :
    (compile source').toOption = (compile source).toOption := by
  obtain ⟨b, reached, free, admits⟩ := await
  have counted : b.Counted := Builder.Counted.lines Finished.start reached
  have run : Parallel (Builder.Retuned [] 0) (Builder.lines {} 0 (before ++ more))
      (Builder.lines {} 0 (before ++ more')) := by
    rw [Builder.lines_of_reached reached, Builder.lines_of_reached reached]
    exact alike b free admits counted
  rw [compile_retuned reads reads' run]
  cases (compile source).toOption <;> simp

/-- `repeat` is an abbreviation: of the match block of the rule before it, and where a match
block with the same box is written, of the effect block. Where a script with the block
compiles the script with the line does, and to the same world. -/
theorem repeat_abbreviates {before : List (List Char)} (await : AwaitRule before)
    (M : Block "match") (E : Block "->") (again : List Char) (rest : List (List Char))
    {short full : List Char} :
    (∀ E' : Block "->", Form.repetition.read again = .ok .matching →
      Reads short (before ++ (M.texts ++ (E.texts ++ again :: (E'.texts ++ rest)))) →
      Reads full (before ++ (M.texts ++ (E.texts ++ (M.texts ++ (E'.texts ++ rest))))) →
      (compile short).toOption = (compile full).toOption) ∧
    (∀ M' : Block "match", M'.box? = M.box? → Form.repetition.read again = .ok .effect →
      Reads short (before ++ (M.texts ++ (E.texts ++ (M'.texts ++ again :: rest)))) →
      Reads full (before ++ (M.texts ++ (E.texts ++ (M'.texts ++ (E.texts ++ rest))))) →
      (compile short).toOption = (compile full).toOption) := by
  refine ⟨?_, ?_⟩
  · intro E' read reads reads'
    exact compile_eq_of_parallel reads' reads await fun b free admits counted =>
      Builder.lines_repeatMatch free admits counted read
  · intro M' box read reads reads'
    exact compile_eq_of_parallel reads' reads await fun b free admits counted =>
      Builder.lines_repeatEffect free admits counted box read

/-! ## A grain that sinks and floats -/

/-- The beginning of an atom with rules. -/
def grainStart : List (List Char) := ["atom Grain \x7b".toList, "section update \x7b".toList]

/-- The end of an atom. -/
def grainEnd : List (List Char) := [closing, closing]

def sinkMatch : Block "match" where
  header := "match (0, 0, 1, 2) \x7b".toList
  inner := ["pattern".toList, "x".toList, "_".toList]
  named := by decide
  apart := by decide

def floatMatch : Block "match" where
  header := "match (0, 0, 1, 2) sym(y) \x7b".toList
  inner := ["eval 1".toList]
  named := by decide
  apart := by decide

def swapEffect : Block "->" where
  header := "-> P-0.5 \x7b".toList
  inner := ["always-run".toList, "pattern".toList, "_".toList, "x".toList]
  named := by decide
  apart := by decide

def stayEffect : Block "->" where
  header := "-> \x7b".toList
  inner := ["non-break".toList, "shift(0, 1)".toList]
  named := by decide
  apart := by decide

theorem await_grain : AwaitRule grainStart := awaitRule_of_any (by decide +kernel)

/-- A grain whose rule is always run, with a probability: its match block is repeated with
another effect, and its effect after another match block. -/
theorem grain_repeats :
    (let short := scriptOf (grainStart ++ (sinkMatch.texts ++ (swapEffect.texts ++
        "repeat match".toList :: (stayEffect.texts ++ grainEnd))))
      let full := scriptOf (grainStart ++ (sinkMatch.texts ++ (swapEffect.texts ++
        (sinkMatch.texts ++ (stayEffect.texts ++ grainEnd)))))
      (compile short).toOption.isSome = true ∧
        (compile short).toOption = (compile full).toOption) ∧
    (let short := scriptOf (grainStart ++ (sinkMatch.texts ++ (swapEffect.texts ++
        (floatMatch.texts ++ "repeat effect".toList :: grainEnd))))
      let full := scriptOf (grainStart ++ (sinkMatch.texts ++ (swapEffect.texts ++
        (floatMatch.texts ++ (swapEffect.texts ++ grainEnd)))))
      (compile short).toOption.isSome = true ∧
        (compile short).toOption = (compile full).toOption) := by
  refine ⟨⟨by decide +kernel, ?_⟩, ⟨by decide +kernel, ?_⟩⟩
  · exact (repeat_abbreviates await_grain sinkMatch swapEffect "repeat match".toList
      grainEnd).1 stayEffect (eq_ok_of_toOption (by decide +kernel)) (by decide +kernel)
      (by decide +kernel)
  · exact (repeat_abbreviates await_grain sinkMatch swapEffect "repeat effect".toList
      grainEnd).2 floatMatch (by decide +kernel) (eq_ok_of_toOption (by decide +kernel))
      (by decide +kernel) (by decide +kernel)

end FallingSand.Script
