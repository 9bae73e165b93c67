import FallingSand.Proofs.Script.Drafts
import FallingSand.Script.Compile

/-!
# What a line does to a builder

Everything that an accepted line can do to what is known between two lines, as a
relation. An invariant of compilation has to be looked at once for each of its
cases, with the guards that the line has passed, and not once for each branch of
the compiler. `Builder.next_of_line` says that there are no other cases, and
`Builder.invariant_of_lines` carries an invariant through a script.
-/

namespace FallingSand.Script

/-- Whether a color rule is written in a line: its condition before the first arrow, and the three
channels behind it. -/
structure WrittenIn (rule : ColorRule) (line : List Char) : Prop where
  parts : ∃ condition components r g b,
    Text.splitAtFirst? ['=', '>'] line = some (condition, components) ∧
      splitTopLevel components = [r, g, b] ∧
      Expr.compile .absolute condition = .ok rule.condition ∧
      Expr.compile .absolute r = .ok rule.r ∧ Expr.compile .absolute g = .ok rule.g ∧
      Expr.compile .absolute b = .ok rule.b

theorem WrittenIn.compiled {rule : ColorRule} {line : List Char} (written : WrittenIn rule line) :
    ∀ e ∈ [rule.condition, rule.r, rule.g, rule.b], ∃ text,
      Expr.compile .absolute text = .ok e := by
  obtain ⟨condition, _, r, g, b, -, -, compiledCondition, compiledR, compiledG, compiledB⟩ :=
    written.parts
  intro e member
  simp only [List.mem_cons, List.not_mem_nil, or_false] at member
  rcases member with rfl | rfl | rfl | rfl
  · exact ⟨condition, compiledCondition⟩
  · exact ⟨r, compiledR⟩
  · exact ⟨g, compiledG⟩
  · exact ⟨b, compiledB⟩

/-- A color rule that is accepted is written in its line, and goes behind those before it. -/
theorem addColorRule_ok {line : List Char} {atom atom' : AtomType}
    (h : addColorRule line atom = .ok atom') : ∃ rule, WrittenIn rule line ∧
      atom' = { atom with colorRules := atom.colorRules ++ [rule] } := by
  unfold addColorRule at h
  dsimp only at h
  split at h
  · cases h
  rename_i condition components cut
  split at h
  · rename_i r g b three
    obtain ⟨_, compiledCondition, h⟩ := bind_eq_ok.mp h
    obtain ⟨_, compiledR, h⟩ := bind_eq_ok.mp h
    obtain ⟨_, compiledG, h⟩ := bind_eq_ok.mp h
    obtain ⟨_, compiledB, h⟩ := bind_eq_ok.mp h
    cases h
    exact ⟨_, ⟨condition, components, r, g, b, cut, three,
      compileExpr_eq_ok.mp compiledCondition, compileExpr_eq_ok.mp compiledR,
      compileExpr_eq_ok.mp compiledG, compileExpr_eq_ok.mp compiledB⟩, rfl⟩
  · cases h

/-- What a line in a section of an atom, rules apart, makes of the atom. -/
inductive AtomChange (part : Option Part) (line : List Char) (atom : AtomType) : AtomType → Prop
  | color (color : AtomColor) : AtomChange part line atom { atom with color }
  | key (key : Char) : AtomChange part line atom { atom with key := some key }
  | constant (name : String) (value : Float32) :
      AtomChange part line atom { atom with constants := atom.constants.insert name value }
  | property (name : String) (value : Float32) :
      AtomChange part line atom { atom with properties := atom.properties.insert name value }
  | definition {name : String} {members : List SetMember} : part = some .definition →
      Form.definition.read line = .ok (name, members) →
      AtomChange part line atom { atom with definitions := atom.definitions.insert name members }
  | init (name : String) {text : List Char} {value : Expr} :
      Expr.compile .absolute text = .ok value →
      AtomChange part line atom { atom with init := atom.init ++ [(name, value)] }
  | colorRule {rule : ColorRule} : part = some .color → WrittenIn rule line →
      AtomChange part line atom { atom with colorRules := atom.colorRules ++ [rule] }
  | extension (extension : Extension) :
      AtomChange part line atom { atom with extensions := atom.extensions.push extension }

namespace AtomChange

variable {part : Option Part} {line : List Char} {atom atom' : AtomType}

theorem of_addProperty (h : addProperty line atom = .ok atom') :
    AtomChange part line atom atom' := by
  unfold addProperty at h
  obtain ⟨⟨constant, name, value⟩, -, h⟩ := bind_eq_ok.mp h
  dsimp only at h
  split at h
  · split at h
    · cases h
      exact .color .dynamic
    · obtain ⟨color, -, h⟩ := bind_eq_ok.mp h
      cases h
      exact .color (.fixed color)
  split at h
  · split at h
    · cases h
      exact .key _
    · cases h
  split at h
  · cases h
  · split at h
    · cases h
      exact .constant name _
    · cases h
      exact .property name _

theorem of_addDefinition (h : addDefinition line atom = .ok atom') :
    AtomChange (some .definition) line atom atom' := by
  unfold addDefinition at h
  obtain ⟨⟨name, members⟩, read, h⟩ := bind_eq_ok.mp h
  cases h
  exact .definition rfl read

theorem of_addInit (h : addInit line atom = .ok atom') : AtomChange part line atom atom' := by
  unfold addInit at h
  obtain ⟨⟨target, text⟩, -, h⟩ := bind_eq_ok.mp h
  obtain ⟨value, compiled, h⟩ := bind_eq_ok.mp h
  cases h
  exact .init target.name (compileExpr_eq_ok.mp compiled)

theorem of_addColorRule (h : addColorRule line atom = .ok atom') :
    AtomChange (some .color) line atom atom' := by
  obtain ⟨rule, written, rfl⟩ := addColorRule_ok h
  exact .colorRule rfl written

theorem of_addExtension (h : addExtension line atom = .ok atom') :
    AtomChange part line atom atom' := by
  unfold addExtension at h
  obtain ⟨⟨name, parameters⟩, -, h⟩ := bind_eq_ok.mp h
  dsimp only at h
  split at h
  · cases h
  split at h
  · cases h
  split at h
  · cases h
    exact .extension _
  · obtain ⟨probability, -, h⟩ := bind_eq_ok.mp h
    cases h
    exact .extension _

/-- The number and the rules stay. -/
theorem kept (h : AtomChange part line atom atom') :
    atom'.id = atom.id ∧ atom'.allRules = atom.allRules := by
  cases h <;> exact ⟨rfl, rfl⟩

/-- Both lists stay. -/
theorem lists (h : AtomChange part line atom atom') :
    atom'.alwaysRules = atom.alwaysRules ∧ atom'.rules = atom.rules := by
  cases h <;> exact ⟨rfl, rfl⟩

end AtomChange

namespace Builder

/-- A copy of a finished rule, as it is inherited. -/
def inheritedCopy (probability : Option Float) (rule : Rule) : Rule :=
  { rule with always := false, probability := probability.getD rule.probability }

/-- The rule that starts with the match block of a previous one. -/
def rematched (previous : Rule) : Rule :=
  { Rule.blank previous.width previous.height previous.anchor with
    pattern := previous.pattern
    conditions := previous.conditions
    symmetry := previous.symmetry }

/-- A rule with the effect block of a previous one. -/
def reeffected (rule previous : Rule) : Rule :=
  { rule with
    effect := previous.effect
    steps := previous.steps
    probability := previous.probability
    nonBreak := previous.nonBreak
    always := previous.always
    shift := previous.shift }

/-- Whether rules may stand here: in a rule set, or in the section `update` of an atom. -/
def AdmitsRules (b : Builder) : Prop := b.inRuleset = true ∨ b.part? = some .update

/-- Where a line may stand that belongs to no block of a rule. -/
def Outside (b : Builder) : Prop :=
  ∀ d, b.draft = some d → d.rowsLeft = 0 ∧ d.phase = .between

/-- What a line can make of a builder. -/
inductive Next (b : Builder) (index : Nat) (line : List Char) : Builder → Prop
  /- In a pattern. -/
  | row {d d' : Draft} : b.draft = some d → 0 < d.rowsLeft → d.patternRow line = .ok d' →
      Next b index line { b with draft := some d' }
  /- In a block of a rule. -/
  | pattern {d d' : Draft} : b.draft = some d → d.rowsLeft = 0 → d.phase ≠ .between →
      line = "pattern".toList → d.beginPattern = .ok d' →
      Next b index line { b with
        draft := some d', effectLine := if d.phase = .effect then index else b.effectLine }
  | matchLine {d d' : Draft} : b.draft = some d → d.rowsLeft = 0 → d.phase = .matching →
      d.matchLine line = .ok d' → Next b index line { b with draft := some d' }
  | effectLine {d d' : Draft} : b.draft = some d → d.rowsLeft = 0 → d.phase = .effect →
      d.effectLine b.inRuleset line = .ok d' → Next b index line { b with draft := some d' }
  | endMatch {d : Draft} : b.draft = some d → d.rowsLeft = 0 → d.phase = .matching →
      Next b index line
        { b with draft := some { d with phase := .between, patterned := false } }
  | endEffect {d : Draft} {b' : Builder} : b.draft = some d → d.rowsLeft = 0 →
      d.phase = .effect → finish { b with draft := none } d.rule = .ok b' → Next b index line b'
  /- Among rules. -/
  | beginMatch {x y width height : UInt8} {symmetry : Symmetry} : b.AdmitsRules →
      b.draft = none → x < width → y < height →
      Next b index line { b with
        draft := some {
          rule := { Rule.blank width height
            ⟨Int32.ofNat x.toNat, Int32.ofNat y.toNat⟩ with symmetry }
          phase := .matching } }
  | beginEffect {d : Draft} {p : Float} : b.draft = some d → d.rowsLeft = 0 →
      d.phase = .between → (p = d.rule.probability ∨ checkProbability p = .ok p) →
      Next b index line { b with
        draft := some { d with
          rule := { d.rule with probability := p }, phase := .effect, patterned := false }
        effectLine := index }
  | repeatMatch {previous : Rule} : b.AdmitsRules → b.draft = none →
      b.previous = some previous →
      Next b index line { b with draft := some { rule := rematched previous } }
  | repeatEffect {d : Draft} {previous : Rule} {b' : Builder} : b.draft = some d →
      d.rowsLeft = 0 → d.phase = .between → b.previous = some previous →
      Form.repetition.read line = .ok .effect →
      finish { b with draft := none } (reeffected d.rule previous) = .ok b' →
      Next b index line b'
  | inheritNothing (name : String) : b.draft = none → b.rulesNamed? name = none →
      Next b index line { b with warnings := b.warnings ++ [.nothingInherited name] }
  | inherit {name : String} {rules : Array Rule} {probability : Option Float} :
      b.draft = none → b.rulesNamed? name = some rules →
      (∀ p, probability = some p → checkProbability p = .ok p) →
      Next b index line
        (rules.foldl (fun b rule => b.pushNew (inheritedCopy probability rule)) b)
  /- In an atom. -/
  | change {atom atom' : AtomType} {part : Option Part} : b.scope = .atom atom part →
      AtomChange part line atom atom' → b.Outside →
      Next b index line { b with scope := .atom atom' part }
  | openPart {atom : AtomType} (part : Part) : b.scope = .atom atom none →
      Next b index line { b with scope := .atom atom (some part) }
  | closePart {atom : AtomType} {part : Part} : b.draft = none →
      b.scope = .atom atom (some part) → Next b index line { b with scope := .atom atom none }
  | closeAtom {atom : AtomType} : b.draft = none → b.scope = .atom atom none →
      Next b index line { b with atoms := b.atoms.push atom, scope := .file }
  | closeRuleset {name : String} {rules : Array Rule} : b.draft = none →
      b.scope = .ruleset name rules →
      Next b index line { b with rulesets := b.rulesets.insert name rules, scope := .file }
  /- Anywhere outside the blocks of a rule. -/
  | openAtom {name : String} {aliasName : Option String} : b.scope = .file →
      b.atoms.any (·.name == name) = false → Form.atomStart.read line = .ok (name, aliasName) →
      b.Outside → Next b index line { b with
        scope := .atom { id := UInt16.ofNat b.atoms.size, name, aliasName,
                         definitions := Table.ofList b.globals } none
        previous := none }
  | openRuleset (name : String) : b.scope = .file →
      Next b index line { b with scope := .ruleset name #[], previous := none }
  | global {entry : String × List SetMember} : Form.global.read line = .ok entry → b.Outside →
      Next b index line { b with globals := b.globals ++ [entry] }
  | preload (range : ColorRange) : Next b index line { b with preload := b.preload ++ [range] }
  | default (name : String) (value : Float32) :
      Next b index line { b with defaults := b.defaults.insert name value }

variable {b b' : Builder} {index : Nat} {line : List Char}

/-! ## There are no other cases -/

theorem checkProbability_ok {p q : Float} (h : checkProbability p = .ok q) :
    q = p ∧ checkProbability q = .ok q := by
  have same : q = p := by
    unfold checkProbability at h
    split at h
    · cases h
      rfl
    · cases h
  subst same
  exact ⟨rfl, h⟩

theorem flaggedProbability_ok {flags : List (String × List Char)} {found : Option Float}
    (h : flaggedProbability flags = .ok found) :
    ∀ p, found = some p → checkProbability p = .ok p := by
  induction flags generalizing found with
  | nil =>
    intro p hp
    cases h
    cases hp
  | cons flag rest ih =>
    obtain ⟨name, value⟩ := flag
    unfold flaggedProbability at h
    split at h
    · obtain ⟨first, read, h⟩ := bind_eq_ok.mp h
      obtain ⟨later, tail, h⟩ := bind_eq_ok.mp h
      cases h
      intro p hp
      cases later with
      | some _ =>
        cases hp
        exact ih tail p rfl
      | none =>
        cases hp
        unfold readProbability at read
        split at read
        · cases read
        · exact (checkProbability_ok read).2
    · cases h

theorem finish_ok {rule : Rule} (h : b.finish rule = .ok b') :
    (rule.hasMap = true → rule.effect.size = rule.area) ∧
      b' = (b.refer rule).pushNew rule := by
  unfold finish at h
  split at h
  · cases h
  · rename_i complete
    cases h
    refine ⟨?_, rfl⟩
    intro map
    simpa [map] using complete

theorem next_of_beginMatch (rules : b.AdmitsRules) (h : b.beginMatch line = .ok b') :
    b.Next index line b' := by
  unfold beginMatch at h
  dsimp only at h
  split at h
  · cases h
  rename_i closed
  obtain ⟨header, -, h⟩ := bind_eq_ok.mp h
  split at h
  · cases h
  rename_i box
  simp only [Bool.or_eq_true, decide_eq_true_eq, not_or, UInt8.not_le] at box
  have none : b.draft = none := by simpa using closed
  split at h
  · cases h
    exact .beginMatch rules none box.1.2 box.2
  · split at h
    · cases h
      exact .beginMatch rules none box.1.2 box.2
    · cases h

theorem outside_of_free (free : b.draft = none) : b.Outside := by
  intro d found
  rw [free] at found
  cases found

theorem outside_of_between {d : Draft} (draft : b.draft = some d) (rows : d.rowsLeft = 0)
    (between : d.phase = .between) : b.Outside := by
  intro d' found
  rw [draft] at found
  cases found
  exact ⟨rows, between⟩

theorem next_of_beginEffect (outside : b.Outside) (h : b.beginEffect index line = .ok b') :
    b.Next index line b' := by
  unfold beginEffect at h
  obtain ⟨written, -, h⟩ := bind_eq_ok.mp h
  cases draft : b.draft with
  | none =>
    rw [draft] at h
    cases h
  | some d =>
    rw [draft] at h
    obtain ⟨rows, between⟩ := outside d draft
    cases written with
    | none =>
      cases h
      exact .beginEffect draft rows between (.inl rfl)
    | some numeral =>
      obtain ⟨p, checked, h⟩ := bind_eq_ok.mp h
      cases h
      exact .beginEffect draft rows between (.inr (checkProbability_ok checked).2)

theorem next_of_repeatBlock (outside : b.Outside) (rules : b.AdmitsRules)
    (h : b.repeatBlock line = .ok b') : b.Next index line b' := by
  unfold repeatBlock at h
  obtain ⟨kind, form, h⟩ := bind_eq_ok.mp h
  split at h
  · cases h
  rename_i previous before
  cases kind with
  | matching =>
    dsimp only at h
    split at h
    · cases h
    · rename_i closed
      cases h
      exact .repeatMatch rules (by simpa using closed) before
  | effect =>
    dsimp only at h
    split at h
    · cases h
    · rename_i d draft
      obtain ⟨rows, between⟩ := outside d draft
      exact .repeatEffect draft rows between before form h

theorem next_of_inherit (h : b.inherit line = .ok b') : b.Next index line b' := by
  unfold inherit at h
  dsimp only at h
  split at h
  · cases h
  rename_i closed
  have none : b.draft = none := by simpa using closed
  obtain ⟨⟨name, flags⟩, -, h⟩ := bind_eq_ok.mp h
  obtain ⟨probability, checked, h⟩ := bind_eq_ok.mp h
  split at h
  · rename_i missing
    cases h
    exact .inheritNothing name none missing
  · rename_i rules found
    cases h
    exact .inherit none found (flaggedProbability_ok checked)

theorem next_of_ruleLine (outside : b.Outside) (rules : b.AdmitsRules)
    (h : b.ruleLine index line = .ok b') : b.Next index line b' := by
  unfold ruleLine at h
  split at h
  · exact next_of_beginMatch rules h
  · exact next_of_beginEffect outside h
  · exact next_of_repeatBlock outside rules h
  · exact next_of_inherit h
  · split at h
    · rename_i scope
      obtain ⟨atom', added, h⟩ := bind_eq_ok.mp h
      cases h
      exact .change scope (.of_addExtension added) outside
    · cases h
  · cases h

theorem next_of_bodyLine (outside : b.Outside) (h : b.bodyLine index line = .ok b') :
    b.Next index line b' := by
  unfold bodyLine at h
  dsimp only at h
  split at h
  · rename_i name rules scope
    exact next_of_ruleLine outside (.inl (by rw [inRuleset, scope])) h
  · rename_i atom part scope
    cases part with
    | update => exact next_of_ruleLine outside (.inr (by rw [part?, scope])) h
    | property =>
      obtain ⟨atom', added, h⟩ := bind_eq_ok.mp h
      cases h
      exact .change scope (.of_addProperty added) outside
    | definition =>
      obtain ⟨atom', added, h⟩ := bind_eq_ok.mp h
      cases h
      exact .change scope (.of_addDefinition added) outside
    | init =>
      obtain ⟨atom', added, h⟩ := bind_eq_ok.mp h
      cases h
      exact .change scope (.of_addInit added) outside
    | color =>
      obtain ⟨atom', added, h⟩ := bind_eq_ok.mp h
      cases h
      exact .change scope (.of_addColorRule added) outside
  · cases h

theorem scope_of_inFile (h : ¬(!b.inFile) = true) : b.scope = .file := by
  unfold inFile at h
  split at h
  · assumption
  · exact absurd rfl h

theorem next_of_outerLine (outside : b.Outside) (h : b.outerLine index line = .ok b') :
    b.Next index line b' := by
  unfold outerLine at h
  split at h
  · obtain ⟨entry, read, h⟩ := bind_eq_ok.mp h
    cases h
    exact .global read outside
  · obtain ⟨corners, -, h⟩ := bind_eq_ok.mp h
    cases h
    exact .preload _
  · obtain ⟨entry, -, h⟩ := bind_eq_ok.mp h
    cases h
    exact .default _ _
  · unfold openAtom at h
    dsimp only at h
    split at h
    · cases h
    rename_i file
    obtain ⟨⟨name, aliasName⟩, read, h⟩ := bind_eq_ok.mp h
    split at h
    · cases h
    rename_i fresh
    cases h
    exact .openAtom (scope_of_inFile file) (by simpa using fresh) read outside
  · unfold openRuleset at h
    dsimp only at h
    split at h
    · cases h
    rename_i file
    obtain ⟨name, -, h⟩ := bind_eq_ok.mp h
    cases h
    exact .openRuleset name (scope_of_inFile file)
  · unfold openPart at h
    split at h
    · rename_i scope
      obtain ⟨name, -, h⟩ := bind_eq_ok.mp h
      split at h
      · cases h
        exact .openPart _ scope
      · cases h
    · cases h
  · exact next_of_bodyLine outside h

theorem next_of_close (complete : ∀ d, b.draft = some d → d.rowsLeft = 0)
    (h : b.close = .ok b') : b.Next index line b' := by
  unfold close at h
  split at h
  · rename_i d draft
    have rows := complete d draft
    split at h
    · rename_i matching
      cases h
      exact .endMatch draft rows matching
    · rename_i effect
      exact .endEffect draft rows effect h
    · cases h
  · rename_i draft
    split at h
    · rename_i scope
      cases h
      exact .closePart draft scope
    · rename_i scope
      cases h
      exact .closeAtom draft scope
    · rename_i scope
      cases h
      exact .closeRuleset draft scope
    · cases h

theorem next_of_blockLine {d : Draft} (draft : b.draft = some d) (rows : d.rowsLeft = 0)
    (inside : d.phase ≠ .between) (h : b.blockLine index d line = .ok b') :
    b.Next index line b' := by
  unfold blockLine at h
  split at h
  · rename_i same
    obtain ⟨d', opened, h⟩ := bind_eq_ok.mp h
    cases h
    exact .pattern draft rows inside same opened
  split at h
  · rename_i matching
    obtain ⟨d', added, h⟩ := bind_eq_ok.mp h
    cases h
    exact .matchLine draft rows matching added
  · rename_i notMatching
    obtain ⟨d', added, h⟩ := bind_eq_ok.mp h
    cases h
    refine .effectLine draft rows ?_ added
    cases phase : d.phase with
    | between => exact absurd phase inside
    | matching => exact absurd phase notMatching
    | effect => rfl

/-- Every accepted line is one of the cases. -/
theorem next_of_line (h : b.line index line = .ok b') : b.Next index line b' := by
  unfold Builder.line at h
  dsimp only at h
  split at h
  · rename_i d draft
    -- A block of a rule is open.
    have only : ∀ d', b.draft = some d' → d' = d := by
      intro d' found
      rw [draft] at found
      cases found
      rfl
    split at h
    · rename_i rows
      split at h
      · cases h
      · obtain ⟨d', row, h⟩ := bind_eq_ok.mp h
        cases h
        exact .row draft rows row
    rename_i noRows
    have complete : ∀ d', b.draft = some d' → d'.rowsLeft = 0 := by
      intro d' found
      rw [only d' found]
      omega
    split at h
    · exact next_of_close complete h
    split at h
    · rename_i between
      refine next_of_outerLine (fun d' found => ⟨complete d' found, ?_⟩) h
      rw [only d' found]
      exact between
    · rename_i inside
      exact next_of_blockLine draft (complete d draft) inside h
  · rename_i draft
    -- No block of a rule is open.
    have noDraft : ∀ d, b.draft = some d → False := by
      intro d found
      rw [draft] at found
      cases found
    split at h
    · exact next_of_close (fun d found => (noDraft d found).elim) h
    · exact next_of_outerLine (fun d found => (noDraft d found).elim) h

/-- An accepted line is a row of the open pattern if there are rows that it lacks. -/
theorem row_or_complete (h : b.line index line = .ok b') :
    (∃ d d', b.draft = some d ∧ 0 < d.rowsLeft ∧ d.patternRow line = .ok d' ∧
      b' = { b with draft := some d' }) ∨
    ∀ d, b.draft = some d → d.rowsLeft = 0 := by
  cases draft : b.draft with
  | none => exact .inr fun d found => nomatch found
  | some d =>
    by_cases rows : 0 < d.rowsLeft
    · left
      simp only [Builder.line, draft, if_pos rows] at h
      split at h
      · cases h
      · obtain ⟨d', row, h⟩ := bind_eq_ok.mp h
        cases h
        exact ⟨d, d', rfl, rows, row, rfl⟩
    · right
      intro other found
      cases found
      omega

/-! ## Whole scripts -/

theorem lines_cons_ok {text : List Char} {rest : List (List Char)} :
    b.lines index (text :: rest) = .ok b' ↔ ∃ next, b.line index text = .ok next ∧
      next.lines (index + 1) rest = .ok b' := by
  rw [lines]
  cases b.line index text with
  | error problem => simp
  | ok next => simp

/-- Lines are read one after the other. -/
theorem lines_append_ok {before after : List (List Char)} :
    b.lines index (before ++ after) = .ok b' ↔ ∃ between, b.lines index before = .ok between ∧
      between.lines (index + before.length) after = .ok b' := by
  induction before generalizing b index with
  | nil => simp [lines]
  | cons text rest ih =>
    simp only [List.cons_append, lines, List.length_cons]
    cases b.line index text with
    | error problem => simp
    | ok next =>
      dsimp only
      rw [ih, Nat.add_right_comm, Nat.add_assoc]

theorem lines_singleton_ok : b.lines index [line] = .ok b' ↔ b.line index line = .ok b' := by
  simp only [lines]
  cases b.line index line <;> simp

/-- What holds of the empty builder and is kept by every line holds after any
lines. -/
theorem invariant_of_lines {I : Builder → Prop}
    (step : ∀ {b index line b'}, Next b index line b' → I b → I b') {texts : List (List Char)}
    (start : I b) (h : b.lines index texts = .ok b') : I b' := by
  induction texts generalizing b index with
  | nil =>
    cases h
    exact start
  | cons text rest ih =>
    obtain ⟨next, accepted, h⟩ := lines_cons_ok.mp h
    exact ih (step (next_of_line accepted) start) h

/-- At the end of a script whose blocks are closed no rule and no other block is open. -/
theorem scope_of_unclosed? (h : b.unclosed? = none) : b.draft = none ∧ b.scope = .file := by
  unfold unclosed? at h
  split at h
  · cases h
  rename_i closed
  refine ⟨by simpa using closed, ?_⟩
  cases scope : b.scope with
  | file => rfl
  | ruleset => rw [scope] at h; cases h
  | atom atom part =>
    rw [scope] at h
    cases part <;> cases h

/-- A world is built of what the builder has declared, and there is a type for every symbol
that has to be one. -/
theorem build_ok {compiled : Compiled} (h : b.build = .ok compiled) :
    compiled.world.atoms = b.atoms ∧ compiled.world.defaults = b.defaults ∧
      ∀ entry ∈ b.references, (compiled.world.placeable? entry.2).isSome := by
  unfold build at h
  split at h
  · cases h
  rename_i world built
  split at h
  · cases h
  rename_i known
  cases h
  have found : ∀ entry ∈ b.references, (world.placeable? entry.2).isSome := by
    intro entry member
    simpa [Option.isSome_iff_ne_none] using List.find?_eq_none.mp known entry member
  unfold World.build? at built
  split at built
  · cases built
    exact ⟨rfl, rfl, found⟩
  · cases built

/-- A script that compiles is read to its end, with every block closed. -/
theorem exists_build_of_compile {source : List Char} {compiled : Compiled}
    (h : compile source = .ok compiled) : ∃ kept b, Script.lines source = .ok kept ∧
      Builder.lines {} 0 (kept.map (·.text)) = .ok b ∧ b.unclosed? = none ∧
      b.build = .ok compiled := by
  unfold compile at h
  split at h
  · cases h
  rename_i kept read
  rw [mapError_eq_ok] at h
  unfold compileLines at h
  split at h
  · cases h
  rename_i b reached
  split at h
  · cases h
  rename_i closed
  exact ⟨kept, b, read, reached, closed, h⟩

/-- The world of a script holds the closed atoms of the builder that its lines lead to. -/
theorem exists_run_of_compile {source : List Char} {compiled : Compiled}
    (h : compile source = .ok compiled) : ∃ kept b, Script.lines source = .ok kept ∧
      Builder.lines {} 0 (kept.map (·.text)) = .ok b ∧
      compiled.world.atoms = b.atoms ∧ compiled.world.defaults = b.defaults := by
  obtain ⟨kept, b, read, reached, -, built⟩ := exists_build_of_compile h
  exact ⟨kept, b, read, reached, (build_ok built).1, (build_ok built).2.1⟩

/-- An invariant holds of the builder whose atoms are those of the world. -/
theorem exists_of_compile {source : List Char} {compiled : Compiled} {I : Builder → Prop}
    (step : ∀ {b index line b'}, Next b index line b' → I b → I b') (start : I {})
    (h : compile source = .ok compiled) : ∃ b : Builder, I b ∧
      compiled.world.atoms = b.atoms ∧ compiled.world.defaults = b.defaults := by
  obtain ⟨kept, b, -, reached, atoms, defaults⟩ := exists_run_of_compile h
  exact ⟨b, invariant_of_lines step start reached, atoms, defaults⟩

end Builder

end FallingSand.Script
