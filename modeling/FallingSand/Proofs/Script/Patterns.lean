import FallingSand.Proofs.Script.AtomTable
import FallingSand.Proofs.Script.PatternRows

/-!
# Patterns as they are written

From where its rows are read the pattern of a block stays as it is until the rule is finished
(`Builder.Next.drawn`), and an atom keeps the rule from then on. So the symbol at a coordinate of
the rule is the one that the token in this column and row of the script stands for
(`patterns_as_written`).
-/

namespace FallingSand.Script

namespace Builder

variable {b b' : Builder} {d : Draft} {index : Nat} {text : List Char}

/-! ## Until the rule is finished -/

/-- How far a rule has come whose pattern stands in a block of a phase: that block is open and has
its pattern, or the block was the match block and is closed. -/
inductive Stage (phase : Phase) (d : Draft) : Prop
  | within : d.phase = phase → d.patterned = true → d.rowsLeft = 0 → Stage phase d
  | between : phase = .matching → d.phase = .between → d.rowsLeft = 0 → Stage phase d
  | effect : phase = .matching → d.phase = .effect → Stage phase d

/-- A rule with the box of another one and a pattern that some tokens spell. -/
structure Drawn (phase : Phase) (box : Rule) (tokens : List (List Char)) (rule : Rule) : Prop where
  width : rule.width = box.width
  height : rule.height = box.height
  depicts : Depicts phase rule tokens

section

variable {phase : Phase} {box : Rule} {tokens : List (List Char)} {rule rule' : Rule}

theorem Drawn.of_matching (drawn : Drawn .matching box tokens rule)
    (width : rule'.width = rule.width) (height : rule'.height = rule.height)
    (pattern : rule'.pattern = rule.pattern) : Drawn .matching box tokens rule' := by
  obtain ⟨symbols, found, spelled⟩ := drawn.depicts
  exact ⟨width.trans drawn.width, height.trans drawn.height, symbols, pattern.trans found, spelled⟩

theorem Drawn.of_effect (drawn : Drawn .effect box tokens rule)
    (width : rule'.width = rule.width) (height : rule'.height = rule.height)
    (effect : rule'.effect = rule.effect) : Drawn .effect box tokens rule' :=
  ⟨width.trans drawn.width, height.trans drawn.height,
    (congrArg Array.toList effect).trans drawn.depicts⟩

theorem Drawn.with_id (drawn : Drawn phase box tokens rule) (id : Nat) :
    Drawn phase box tokens { rule with id } :=
  ⟨drawn.width, drawn.height, by
    have depicts := drawn.depicts
    cases phase <;> exact depicts⟩

/-- A line keeps the pattern of the rule that is being written, or it finishes the rule. -/
theorem Next.drawn (inside : phase ≠ .between) (h : b.Next index text b')
    (draft : b.draft = some d) (drawn : Drawn phase box tokens d.rule) (stage : Stage phase d) :
    (∃ d', b'.draft = some d' ∧ Drawn phase box tokens d'.rule ∧ Stage phase d') ∨
      ∃ rule, finished? b b' = some rule ∧ Drawn phase box tokens rule := by
  have only {d₀ : Draft} (found : b.draft = some d₀) : d = d₀ :=
    Option.some.inj (draft.symm.trans found)
  have free (noDraft : b.draft = none) : False := by
    rw [draft] at noDraft
    cases noDraft
  cases h with
  | row draft₀ left row =>
    obtain rfl := only draft₀
    cases stage with
    | within _ _ complete | between _ _ complete => omega
    | effect matching effect =>
      subst matching
      obtain ⟨-, ⟨-, rfl⟩ | ⟨other, -⟩⟩ := Draft.patternRow_ok row
      · exact .inl ⟨_, rfl, drawn.of_matching rfl rfl rfl, .effect rfl effect⟩
      · exact absurd effect other
  | pattern draft₀ complete block same opened =>
    obtain rfl := only draft₀
    obtain ⟨fresh, changed⟩ := Draft.beginPattern_ok opened
    cases stage with
    | within _ patterned =>
      rw [patterned] at fresh
      cases fresh
    | between _ between => exact absurd between block
    | effect matching effect =>
      subst matching
      obtain ⟨-, rfl⟩ | ⟨other, -⟩ := changed
      · exact .inl ⟨_, rfl, drawn.of_matching rfl rfl rfl, .effect rfl effect⟩
      · exact absurd effect other
  | matchLine draft₀ complete matching added =>
    obtain rfl := only draft₀
    obtain ⟨_, _, -, rfl⟩ := Draft.matchLine_ok added
    cases stage with
    | within here patterned =>
      obtain rfl : phase = .matching := here.symm.trans matching
      exact .inl ⟨_, rfl, drawn.of_matching rfl rfl rfl, .within matching patterned complete⟩
    | between _ other | effect _ other =>
      rw [matching] at other
      cases other
  | effectLine draft₀ complete effect added =>
    obtain rfl := only draft₀
    obtain ⟨rule, change, rfl⟩ := Draft.effectLine_ok added
    have kept : rule.width = d.rule.width ∧ rule.height = d.rule.height ∧
        rule.pattern = d.rule.pattern ∧ rule.effect = d.rule.effect := by
      cases change <;> exact ⟨rfl, rfl, rfl, rfl⟩
    cases stage with
    | within here patterned =>
      obtain rfl : phase = .effect := here.symm.trans effect
      exact .inl ⟨_, rfl, drawn.of_effect kept.1 kept.2.1 kept.2.2.2,
        .within effect patterned complete⟩
    | between _ between =>
      rw [effect] at between
      cases between
    | effect matching =>
      subst matching
      exact .inl ⟨_, rfl, drawn.of_matching kept.1 kept.2.1 kept.2.2.1, .effect rfl effect⟩
  | endMatch draft₀ complete matching =>
    obtain rfl := only draft₀
    cases stage with
    | within here =>
      obtain rfl : phase = .matching := here.symm.trans matching
      exact .inl ⟨_, rfl, drawn.of_matching rfl rfl rfl, .between rfl rfl complete⟩
    | between _ other | effect _ other =>
      rw [matching] at other
      cases other
  | endEffect draft₀ complete effect finished =>
    obtain rfl := only draft₀
    exact .inr ⟨_, (finished?_of_finish draft finished).1, drawn.with_id _⟩
  | beginEffect draft₀ complete between =>
    obtain rfl := only draft₀
    cases stage with
    | within here => exact absurd (here.symm.trans between) inside
    | between matching =>
      subst matching
      exact .inl ⟨_, rfl, drawn.of_matching rfl rfl rfl, .effect rfl rfl⟩
    | effect _ effect =>
      rw [between] at effect
      cases effect
  | repeatEffect draft₀ complete between before form finished =>
    obtain rfl := only draft₀
    refine .inr ⟨_, (finished?_of_finish draft finished).1, ?_⟩
    cases stage with
    | within here => exact absurd (here.symm.trans between) inside
    | between matching =>
      subst matching
      exact drawn.of_matching rfl rfl rfl
    | effect _ effect =>
      rw [between] at effect
      cases effect
  | beginMatch _ noDraft | repeatMatch _ noDraft | inheritNothing _ noDraft | inherit noDraft
    | closePart noDraft | closeAtom noDraft | closeRuleset noDraft => exact (free noDraft).elim
  | change | openPart | openAtom | openRuleset | global | preload | default =>
    exact .inl ⟨d, draft, drawn, stage⟩

end

/-! ## Rules of atoms -/

/-- Whether an atom with a name has a rule, as far as the script is read. -/
def KnowsRule (b : Builder) (name : String) (rule : Rule) : Prop :=
  ∃ atom ∈ b.allAtoms, atom.name = name ∧ rule ∈ atom.allRules

section

variable {atom : AtomType} {part : Option Part} {rule : Rule} {name : String}

theorem mem_allRules_withRule {new : Rule} :
    rule ∈ (atom.withRule new).allRules ↔ rule = new ∨ rule ∈ atom.allRules := by
  unfold AtomType.withRule AtomType.allRules
  split <;> simp <;> tauto

theorem KnowsRule.of_atoms (knows : b.KnowsRule name rule) (same : b'.allAtoms = b.allAtoms) :
    b'.KnowsRule name rule := by
  obtain ⟨atom, member, rest⟩ := knows
  exact ⟨atom, same ▸ member, rest⟩

/-- The open atom may change, if it keeps its name and its rules. -/
theorem KnowsRule.of_open {atom' : AtomType} (knows : b.KnowsRule name rule)
    (before : b.allAtoms = b.atoms.toList ++ [atom])
    (after : b'.allAtoms = b.atoms.toList ++ [atom']) (named : atom'.name = atom.name)
    (rules : ∀ rule ∈ atom.allRules, rule ∈ atom'.allRules) : b'.KnowsRule name rule := by
  obtain ⟨other, member, same, has⟩ := knows
  rw [before] at member
  unfold KnowsRule
  rw [after]
  rcases List.mem_append.mp member with old | last
  · exact ⟨other, List.mem_append_left _ old, same, has⟩
  · rw [List.mem_singleton.mp last] at same has
    exact ⟨atom', by simp, named.trans same, rules rule has⟩

theorem name_withRule (atom : AtomType) (new : Rule) : (atom.withRule new).name = atom.name := by
  unfold AtomType.withRule
  split <;> rfl

theorem KnowsRule.pushNew (knows : b.KnowsRule name rule) (new : Rule) :
    (b.pushNew new).KnowsRule name rule := by
  cases scope : b.scope with
  | file | ruleset =>
    refine knows.of_atoms ?_
    simp [allAtoms, openAtom?, Builder.pushNew, push, scope]
  | atom atom part =>
    exact knows.of_open (allAtoms_of_atom scope) (allAtoms_of_atom (scope_pushNew scope new))
      (name_withRule atom _) fun _ has => mem_allRules_withRule.mpr (.inr has)

theorem KnowsRule.copies (knows : b.KnowsRule name rule) (copy : Rule → Rule)
    (rules : List Rule) :
    (rules.foldl (fun b rule => b.pushNew (copy rule)) b).KnowsRule name rule := by
  induction rules generalizing b with
  | nil => exact knows
  | cons first rest ih => exact ih (knows.pushNew (copy first))

/-- Rules of atoms stay. -/
theorem Next.knowsRule (h : b.Next index text b') (knows : b.KnowsRule name rule) :
    b'.KnowsRule name rule := by
  cases h with
  | row | pattern | matchLine | effectLine | endMatch | beginMatch | beginEffect | repeatMatch
    | inheritNothing | global | preload | default => exact knows
  | endEffect draft rows phase finished | repeatEffect draft rows phase before form finished =>
    obtain ⟨-, rfl⟩ := finish_ok finished
    exact KnowsRule.pushNew (b := refer { b with draft := none } _) knows _
  | inherit draft found checked =>
    rw [← Array.foldl_toList]
    exact knows.copies _ _
  | change scope changed =>
    exact knows.of_open (allAtoms_of_atom scope) (allAtoms_of_atom rfl)
      (congrArg Prod.fst changed.header) fun _ has => changed.kept.2 ▸ has
  | openPart part scope =>
    exact knows.of_open (allAtoms_of_atom scope) (allAtoms_of_atom rfl) rfl fun _ has => has
  | closePart draft scope =>
    exact knows.of_open (allAtoms_of_atom scope) (allAtoms_of_atom rfl) rfl fun _ has => has
  -- the open type becomes the last of the closed ones
  | closeAtom draft scope =>
    refine knows.of_atoms ?_
    rw [allAtoms_of_atom scope, allAtoms_of_other (by simp)]
    exact Array.toList_push
  | closeRuleset draft scope =>
    refine knows.of_atoms ?_
    rw [allAtoms_of_other (b := b) (by simp [scope]), allAtoms_of_other (by simp)]
  | openAtom scope fresh read =>
    obtain ⟨atom, member, rest⟩ := knows
    rw [allAtoms_of_other (by simp [scope])] at member
    refine ⟨atom, ?_, rest⟩
    rw [allAtoms_of_atom rfl]
    exact List.mem_append_left _ member
  | openRuleset name scope =>
    refine knows.of_atoms ?_
    rw [allAtoms_of_other (by simp), allAtoms_of_other (by simp [scope])]

/-- While a rule of an atom is written the atom stays open, and the rule is added to it. -/
theorem Next.scope_of_draft (h : b.Next index text b') (draft : b.draft = some d)
    (scope : b.scope = .atom atom part) : ∃ atom' part', b'.scope = .atom atom' part' ∧
      atom'.name = atom.name ∧ ∀ rule ∈ finished? b b', rule ∈ atom'.allRules := by
  have free (noDraft : b.draft = none) : False := by
    rw [draft] at noDraft
    cases noDraft
  have elsewhere {other : Scope} (found : b.scope = other)
      (no : ∀ atom part, other ≠ .atom atom part) : False := by
    rw [scope] at found
    exact no atom part found.symm
  have unfinished {b'' : Builder} {d' : Draft} (draft' : b''.draft = some d') :
      ∀ rule ∈ finished? b b'', rule ∈ atom.allRules := by
    intro rule found
    rw [finished?_of_draft draft'] at found
    cases found
  have added {rule : Rule} (finished : finish { b with draft := none } rule = .ok b') :
      ∃ atom' part', b'.scope = .atom atom' part' ∧ atom'.name = atom.name ∧
        ∀ rule ∈ finished? b b', rule ∈ atom'.allRules := by
    have noted := (finished?_of_finish draft finished).1
    obtain ⟨-, rfl⟩ := finish_ok finished
    refine ⟨_, part, scope_pushNew (b := refer { b with draft := none } rule) scope rule,
      name_withRule atom _, ?_⟩
    intro rule' found
    rw [noted] at found
    obtain rfl := Option.mem_some_iff.mp found
    exact mem_allRules_withRule.mpr (.inl rfl)
  cases h with
  | row | pattern | matchLine | effectLine | endMatch | beginEffect =>
    exact ⟨atom, part, scope, rfl, unfinished rfl⟩
  | endEffect _ _ _ finished | repeatEffect _ _ _ _ _ finished => exact added finished
  | inheritNothing | global | preload | default =>
    exact ⟨atom, part, scope, rfl, unfinished draft⟩
  | change scope' changed =>
    rw [scope] at scope'
    cases scope'
    refine ⟨_, _, rfl, congrArg Prod.fst changed.header, ?_⟩
    rw [changed.kept.2]
    exact unfinished draft
  | openPart opened scope' =>
    rw [scope] at scope'
    cases scope'
    exact ⟨atom, _, rfl, rfl, unfinished draft⟩
  | beginMatch _ noDraft | repeatMatch _ noDraft | inherit noDraft | closePart noDraft
    | closeAtom noDraft | closeRuleset noDraft => exact (free noDraft).elim
  | openAtom file | openRuleset _ file => exact (elsewhere file (by simp)).elim

end

section

variable {phase : Phase} {box : Rule} {tokens : List (List Char)}

/-- A rule with a pattern is the next one that is finished, if the script goes on to its end. An
atom that is open keeps it. -/
theorem exists_drawn (inside : phase ≠ .between) {after : List (List Char)}
    (run : b.lines index after = .ok b') (ended : b'.draft = none) (draft : b.draft = some d)
    (drawn : Drawn phase box tokens d.rule) (stage : Stage phase d) :
    ∃ rule later, b.gather finished? index after = rule :: later ∧
      Drawn phase box tokens rule ∧
      ∀ atom part, b.scope = .atom atom part → b'.KnowsRule atom.name rule := by
  induction after generalizing b d index with
  | nil =>
    cases run
    rw [draft] at ended
    cases ended
  | cons text rest ih =>
    obtain ⟨next, accepted, run⟩ := lines_cons_ok.mp run
    have step := next_of_line accepted
    rw [gather_cons accepted]
    rcases step.drawn inside draft drawn stage with
      ⟨d', draft', drawn', stage'⟩ | ⟨rule, finished, drawn'⟩
    · obtain ⟨rule, later, seen, drawn, known⟩ := ih run draft' drawn' stage'
      refine ⟨rule, later, ?_, drawn, ?_⟩
      · rw [finished?_of_draft draft', seen]
        rfl
      · intro atom part scope
        obtain ⟨atom', part', scope', named, -⟩ := step.scope_of_draft draft scope
        rw [← named]
        exact known atom' part' scope'
    · refine ⟨rule, _, by rw [finished]; rfl, drawn', ?_⟩
      intro atom part scope
      obtain ⟨atom', part', scope', named, has⟩ := step.scope_of_draft draft scope
      have knows : next.KnowsRule atom.name rule :=
        ⟨atom', by simp [allAtoms_of_atom scope'], named, has rule finished⟩
      exact invariant_of_lines (I := (·.KnowsRule atom.name rule))
        (fun step knows => step.knowsRule knows) knows run

end

end Builder

/-! ## Patterns of a script -/

/-- A line of a script that opens the pattern of the block in which it stands: what the lines
before it lead to is the draft of a rule, in a block that has no pattern yet. -/
structure OpensPattern (kept before : List Line) (opening : Line) (rest : List Line) (b : Builder)
    (d : Draft) : Prop where
  parts : kept = before ++ opening :: rest
  word : opening.text = "pattern".toList
  reached : Builder.lines {} 0 (before.map (·.text)) = .ok b
  draft : b.draft = some d
  complete : d.rowsLeft = 0
  inside : d.phase ≠ .between
  fresh : d.patterned = false

namespace OpensPattern

variable {source : List Char} {kept before rest : List Line} {opening : Line} {b : Builder}
  {d : Draft}

/-- What the line leads to: a pattern without symbols that lacks all of its rows. -/
theorem opened (opens : OpensPattern kept before opening rest b d) : ∃ b' d',
    b.line before.length opening.text = .ok b' ∧ b'.draft = some d' ∧ b'.scope = b.scope ∧
      d'.phase = d.phase ∧ d'.patterned = true ∧ d'.rule.width = d.rule.width ∧
      d'.rule.height = d.rule.height ∧ d'.rowsLeft = d.rule.height.toNat ∧
      Depicts d.phase d'.rule [] := by
  obtain ⟨d', begun, facts⟩ := Draft.beginPattern_eq opens.fresh
  rw [opens.word, Builder.line_pattern opens.draft opens.complete opens.inside, begun]
  exact ⟨_, d', rfl, rfl, rfl, facts⟩

/-- Rows that are not too many lead on to a draft that holds them. -/
theorem rows_read (opens : OpensPattern kept before opening rest b d) {rows : List Line}
    (few : rows.length ≤ d.rule.height.toNat)
    (good : ∀ row ∈ rows, Builder.IsRow d.rule.width.toNat row.text) : ∃ b' d',
    Builder.lines {} 0 ((before ++ opening :: rows).map (·.text)) = .ok b' ∧
      b'.draft = some d' ∧ d'.phase = d.phase ∧ d'.patterned = true ∧
      d'.rule.width = d.rule.width ∧ d'.rule.height = d.rule.height ∧
      d'.rowsLeft = d.rule.height.toNat - rows.length := by
  obtain ⟨b₁, d₁, accepted, draft₁, -, phase₁, patterned₁, width₁, height₁, left₁, -⟩ :=
    opens.opened
  have good₁ : ∀ row ∈ rows.map (·.text), Builder.IsRow d₁.rule.width.toNat row := by
    rw [width₁]
    intro row member
    obtain ⟨line, among, rfl⟩ := List.mem_map.mp member
    exact good line among
  obtain ⟨same, left⟩ := d₁.addRows_sameBlock (rows.map (·.text))
  refine ⟨{ b₁ with draft := some (d₁.addRows (rows.map (·.text))) }, _, ?_, rfl,
    same.phase.trans phase₁, same.patterned.trans patterned₁, same.width.trans width₁,
    same.height.trans height₁, ?_⟩
  · rw [List.map_append, List.map_cons, Builder.lines_of_reached opens.reached, List.length_map,
      Builder.lines_cons, accepted]
    refine (Builder.lines_rows draft₁ ?_).mpr ⟨good₁, rfl⟩
    rw [List.length_map, left₁]
    exact few
  · rw [left, left₁, List.length_map]

/-- Where lines are accepted beyond the rows, the rows are good and a draft holds them; until then
no rule is finished. -/
theorem read_on (opens : OpensPattern kept before opening rest b d) {rows more : List Line}
    (count : rows.length = d.rule.height.toNat) {final : Builder}
    (run : Builder.lines {} 0 ((before ++ opening :: (rows ++ more)).map (·.text)) = .ok final) :
    (∀ row ∈ rows, Builder.IsRow d.rule.width.toNat row.text) ∧ ∃ (b' : Builder) (d' : Draft),
      b'.draft = some d' ∧ b'.scope = b.scope ∧ d'.phase = d.phase ∧ d'.patterned = true ∧
      d'.rowsLeft = 0 ∧
      Builder.Drawn d.phase d.rule ((rows.map (·.text)).flatMap Text.words) d'.rule ∧
      b'.lines (before.length + 1 + rows.length) (more.map (·.text)) = .ok final ∧
      finishedRules ((before ++ opening :: (rows ++ more)).map (·.text)) =
        finishedRules (before.map (·.text)) ++
          b'.gather Builder.finished? (before.length + 1 + rows.length) (more.map (·.text)) := by
  obtain ⟨b₁, d₁, accepted, draft₁, scope₁, phase₁, patterned₁, width₁, height₁, left₁, blank⟩ :=
    opens.opened
  have texts : (before ++ opening :: (rows ++ more)).map (·.text) = before.map (·.text) ++
      opening.text :: (rows.map (·.text) ++ more.map (·.text)) := by
    simp
  rw [texts, Builder.lines_of_reached opens.reached, List.length_map, Builder.lines_cons,
    accepted] at run
  have run : b₁.lines (before.length + 1) (rows.map (·.text) ++ more.map (·.text)) =
      .ok final := run
  obtain ⟨b₂, rowsRun, moreRun⟩ := Builder.lines_append_ok.mp run
  have few : (rows.map (·.text)).length ≤ d₁.rowsLeft := by rw [List.length_map, left₁, count]
  obtain ⟨good, rfl⟩ := (Builder.lines_rows draft₁ few).mp rowsRun
  obtain ⟨same, left⟩ := d₁.addRows_sameBlock (rows.map (·.text))
  rw [List.length_map] at moreRun
  refine ⟨?_, { b₁ with draft := some (d₁.addRows (rows.map (·.text))) }, _, rfl, scope₁,
    same.phase.trans phase₁, same.patterned.trans patterned₁, ?_, ?_, moreRun, ?_⟩
  · intro row member
    rw [← width₁]
    exact good row.text (List.mem_map_of_mem member)
  · rw [left, left₁, List.length_map, count, Nat.sub_self]
  · rw [← phase₁] at blank ⊢
    exact ⟨same.width.trans width₁, same.height.trans height₁,
      Draft.depicts_addRows blank⟩
  · rw [finishedRules, finishedRules, texts, Builder.gather_append opens.reached, Nat.zero_add,
      List.length_map, Builder.gather_cons accepted, Builder.finished?_of_draft draft₁,
      Builder.gather_append rowsRun, Builder.gather_rows draft₁ few good, List.length_map]
    rfl

/-- The rule that is finished next has the pattern that is written. -/
theorem exists_rule (opens : OpensPattern kept before opening rest b d)
    (read : lines source = .ok kept) {rows after : List Line} (parts : rest = rows ++ after)
    (count : rows.length = d.rule.height.toNat) {compiled : Compiled}
    (h : compile source = .ok compiled) : ∃ rule later,
    finishedRules (kept.map (·.text)) = finishedRules (before.map (·.text)) ++ rule :: later ∧
      (∀ row ∈ rows, (Text.words row.text).length = d.rule.width.toNat) ∧
      Builder.Drawn d.phase d.rule ((rows.map (·.text)).flatMap Text.words) rule ∧
      ∀ atom part, b.scope = .atom atom part → ∃ owner ∈ compiled.world.atoms,
        owner.name = atom.name ∧ rule ∈ owner.allRules := by
  obtain ⟨kept', final, read', run, closed, built⟩ := Builder.exists_build_of_compile h
  rw [read] at read'
  cases read'
  obtain ⟨noDraft, file⟩ := Builder.scope_of_unclosed? closed
  have keptParts : kept = before ++ opening :: (rows ++ after) := by rw [opens.parts, parts]
  rw [keptParts] at run
  obtain ⟨good, b', d', draft, scope, phase, patterned, complete, drawn, later, finished⟩ :=
    opens.read_on count run
  obtain ⟨rule, others, seen, drawn, known⟩ := Builder.exists_drawn opens.inside later noDraft draft
    drawn (.within phase patterned complete)
  refine ⟨rule, others, ?_, fun row member => (good row member).2, drawn, ?_⟩
  · rw [keptParts, finished, seen]
  · intro atom part inAtom
    obtain ⟨owner, member, rest⟩ := known atom part (scope.trans inAtom)
    rw [Builder.allAtoms_of_other (by simp [file]), ← (Builder.build_ok built).1] at member
    exact ⟨owner, Array.mem_toList_iff.mp member, rest⟩

end OpensPattern

/-- The pattern of a block is what the lines below it say: as many rows as the box is high, each
with as many tokens as the box is wide. A line with another number of tokens or the end of the
block is a problem of its line before the rows are complete, and so is a second pattern in the
block afterwards. -/
theorem patterns_as_written {source : List Char} {kept before rest : List Line} {opening : Line}
    {b : Builder} {d : Draft} (read : lines source = .ok kept)
    (opens : OpensPattern kept before opening rest b d) :
    (∀ rows after compiled, rest = rows ++ after → rows.length = d.rule.height.toNat →
      compile source = .ok compiled → ∃ rule later,
        finishedRules (kept.map (·.text)) =
          finishedRules (before.map (·.text)) ++ rule :: later ∧
        rule.width = d.rule.width ∧ rule.height = d.rule.height ∧
        (∀ column row, column < d.rule.width.toNat → row < d.rule.height.toNat →
          ∃ line token, rows[row]? = some line ∧ (Text.words line.text)[column]? = some token ∧
            HasSymbol d.phase rule column row token) ∧
        ∀ atom part, b.scope = .atom atom part → ∃ owner ∈ compiled.world.atoms,
          owner.name = atom.name ∧ rule ∈ owner.allRules) ∧
    (∀ rows line after, rest = rows ++ line :: after → rows.length < d.rule.height.toNat →
      (∀ row ∈ rows, Builder.IsRow d.rule.width.toNat row.text) →
        (line.text ≠ closing → (Text.words line.text).length ≠ d.rule.width.toNat →
          compile source = .error (.onLine line.number
            (.rowWidth d.rule.width.toNat (Text.words line.text).length))) ∧
        (line.text = closing → compile source = .error (.onLine line.number
          (.rowCount d.rule.height.toNat rows.length)))) ∧
    ∀ rows inner line after, rest = rows ++ (inner ++ line :: after) →
      rows.length = d.rule.height.toNat → (∀ other ∈ inner, other.text ≠ closing) →
      (Builder.lines {} 0 ((before ++ opening :: (rows ++ inner)).map (·.text))).toOption.isSome =
        true →
      line.text = "pattern".toList →
        compile source = .error (.onLine line.number .duplicatePattern) := by
  refine ⟨?_, ?_, ?_⟩
  · intro rows after compiled parts count h
    obtain ⟨rule, later, finished, wide, drawn, known⟩ := opens.exists_rule read parts count h
    refine ⟨rule, later, finished, drawn.width, drawn.height, ?_, known⟩
    intro column row inside below
    have low : row < rows.length := by omega
    have there := List.getElem?_eq_getElem low
    have narrow : column < (Text.words rows[row].text).length := by
      rw [wide _ (List.getElem_mem _)]
      exact inside
    have here := List.getElem?_eq_getElem narrow
    refine ⟨_, _, there, here, drawn.depicts.hasSymbol ?_ ?_ ?_ here⟩
    · intro text member
      obtain ⟨line, among, rfl⟩ := List.mem_map.mp member
      rw [drawn.width]
      exact wide line among
    · rw [drawn.width]
      exact inside
    · rw [List.getElem?_map, there]
      rfl
  · intro rows line after parts few good
    obtain ⟨b', d', run, draft, -, -, width, height, left⟩ := opens.rows_read few.le good
    have keptParts : kept = (before ++ opening :: rows) ++ line :: after := by
      rw [opens.parts, parts]
      simp
    have lacks : 0 < d'.rowsLeft := by omega
    constructor
    · intro other narrow
      refine compile_eq_error read keptParts run ?_
      rw [Builder.line_row draft lacks other, width, if_pos narrow]
    · intro closes
      refine compile_eq_error read keptParts run ?_
      rw [closes, Builder.line_closing_rows draft lacks, left, height]
      congr 2
      omega
  · intro rows inner line after parts count apart accepted word
    obtain ⟨b', accepted⟩ := Option.isSome_iff_exists.mp accepted
    have run := eq_ok_of_toOption accepted
    obtain ⟨-, b₁, d₁, draft₁, -, phase₁, patterned₁, complete₁, -, later, -⟩ :=
      opens.read_on count run
    have apart' : closing ∉ inner.map (·.text) := by
      intro member
      obtain ⟨other, among, closes⟩ := List.mem_map.mp member
      exact apart other among closes
    obtain ⟨d', draft, phase, complete, patterned⟩ := Builder.patterned_of_lines draft₁
      (phase₁ ▸ opens.inside) complete₁ patterned₁ apart' later
    have keptParts : kept = (before ++ opening :: (rows ++ inner)) ++ line :: after := by
      rw [opens.parts, parts]
      simp
    refine compile_eq_error read keptParts run ?_
    rw [word, Builder.line_pattern draft complete (by rw [phase, phase₁]; exact opens.inside),
      Draft.beginPattern, if_pos patterned]
    rfl

/-! ## Scripts -/

/-- The line at a place of a script opens a pattern: what the lines before it lead to. -/
def openedAt? (kept : List Line) (n : Nat) : Option (Builder × Draft) := do
  let line ← kept[n]?
  let b ← (Builder.lines {} 0 ((kept.take n).map (·.text))).toOption
  let d ← b.draft
  if line.text = "pattern".toList ∧ d.rowsLeft = 0 ∧ d.phase ≠ .between ∧ d.patterned = false then
    some (b, d)
  else none

theorem opensPattern_of_openedAt? {kept : List Line} {n : Nat} {b : Builder} {d : Draft}
    (h : openedAt? kept n = some (b, d)) :
    ∃ opening, OpensPattern kept (kept.take n) opening (kept.drop (n + 1)) b d := by
  obtain ⟨line, found, h⟩ := Option.bind_eq_some_iff.mp h
  obtain ⟨b', run, h⟩ := Option.bind_eq_some_iff.mp h
  obtain ⟨d', draft, h⟩ := Option.bind_eq_some_iff.mp h
  split at h
  · rename_i facts
    cases h
    obtain ⟨word, complete, inside, fresh⟩ := facts
    obtain ⟨bound, here⟩ := List.getElem?_eq_some_iff.mp found
    refine ⟨line, ?_, word, eq_ok_of_toOption run, draft, complete, inside, fresh⟩
    rw [← here, List.getElem_cons_drop, List.take_append_drop]
  · cases h

/-- Lines that follow each other. -/
def numbered (texts : List String) : List Line :=
  texts.zipIdx.map fun (text, n) => ⟨n + 1, text.toList⟩

/-- A script with a rule that has a pattern in either block. In the first one are words that are
statements elsewhere. -/
def tiling : List String :=
  ["atom A \x7b", "section update \x7b", "match (0, 0, 2, 2) \x7b", "pattern",
   "x global", "pattern *", "\x7d", "-> \x7b", "pattern", "/ A", "_ x", "\x7d", "\x7d", "\x7d"]

/-- The script with a row that is too short. -/
def narrow : List String := tiling.set 5 "x"

/-- The script without its last row. -/
def low : List String := tiling.eraseIdx 5

/-- The script with a second pattern in the block. -/
def twofold : List String := tiling.insertIdx 6 "pattern"

/-- The box of the pattern that a line of a script opens, the block in which it stands, and the
atom. -/
def openedBox? (texts : List String) (n : Nat) : Option (UInt8 × UInt8 × Phase × Option String) :=
  (openedAt? (numbered texts) n).map fun (b, d) =>
    (d.rule.width, d.rule.height, d.phase, b.openAtom?.map (·.name))

theorem exists_opensPattern (texts : List String) (n : Nat) (phase : Phase)
    (h : openedBox? texts n = some (2, 2, phase, some "A")) : ∃ opening b d,
    OpensPattern (numbered texts) ((numbered texts).take n) opening ((numbered texts).drop (n + 1))
        b d ∧
      d.rule.width = 2 ∧ d.rule.height = 2 ∧ d.phase = phase ∧
      ∃ atom part, b.scope = .atom atom part ∧ atom.name = "A" := by
  obtain ⟨⟨b, d⟩, found, facts⟩ := Option.map_eq_some_iff.mp h
  simp only [Prod.mk.injEq] at facts
  obtain ⟨width, height, phase, named⟩ := facts
  obtain ⟨opening, opens⟩ := opensPattern_of_openedAt? found
  refine ⟨opening, b, d, opens, width, height, phase, ?_⟩
  obtain ⟨atom, known, same⟩ := Option.map_eq_some_iff.mp named
  unfold Builder.openAtom? at known
  split at known
  · rename_i other part scope
    cases known
    exact ⟨atom, part, scope, same⟩
  · cases known

/-- The symbol of a place, when the word that stands there is known. -/
theorem hasSymbol_of_word {phase : Phase} {rule : Rule} {rows : List Line} {column row : Nat}
    (symbols : ∃ line token, rows[row]? = some line ∧
      (Text.words line.text)[column]? = some token ∧ HasSymbol phase rule column row token)
    {line : Line} {word : List Char} (there : rows[row]? = some line)
    (here : (Text.words line.text)[column]? = some word) :
    HasSymbol phase rule column row word := by
  obtain ⟨line', token, there', here', symbol⟩ := symbols
  cases there.symm.trans there'
  cases here.symm.trans here'
  exact symbol

theorem tiling_as_written :
    (∃ compiled, compile (scriptOf (tiling.map String.toList)) = .ok compiled ∧
      (∃ rule later, finishedRules ((numbered tiling).map (·.text)) =
          finishedRules (((numbered tiling).take 3).map (·.text)) ++ rule :: later ∧
        rule.matchSymbol? 1 0 = some (.member "global") ∧
        ∃ owner ∈ compiled.world.atoms, owner.name = "A" ∧ rule ∈ owner.allRules) ∧
      ∃ rule later, finishedRules ((numbered tiling).map (·.text)) =
          finishedRules (((numbered tiling).take 8).map (·.text)) ++ rule :: later ∧
        rule.effectSymbol? 1 0 = some (.place "A") ∧ rule.effectSymbol? 0 1 = some .empty ∧
        ∃ owner ∈ compiled.world.atoms, owner.name = "A" ∧ rule ∈ owner.allRules) ∧
    compile (scriptOf (narrow.map String.toList)) = .error (.onLine 6 (.rowWidth 2 1)) ∧
    compile (scriptOf (low.map String.toList)) = .error (.onLine 6 (.rowCount 2 1)) ∧
    compile (scriptOf (twofold.map String.toList)) = .error (.onLine 7 .duplicatePattern) := by
  refine ⟨?_, ?_, ?_, ?_⟩
  · have compiles : (compile (scriptOf (tiling.map String.toList))).toOption.isSome = true := by
      decide +kernel
    obtain ⟨compiled, result⟩ := Option.isSome_iff_exists.mp compiles
    have h := eq_ok_of_toOption result
    have read : lines (scriptOf (tiling.map String.toList)) = .ok (numbered tiling) :=
      eq_ok_of_toOption (by decide +kernel)
    refine ⟨compiled, h, ?_, ?_⟩
    · obtain ⟨opening, b, d, opens, width, height, phase, atom, part, scope, named⟩ :=
        exists_opensPattern tiling 3 .matching (by decide +kernel)
      obtain ⟨rule, later, finished, -, -, symbols, known⟩ := (patterns_as_written read opens).1
        [⟨5, "x global".toList⟩, ⟨6, "pattern *".toList⟩] _ compiled rfl (by rw [height]; rfl) h
      have symbol : HasSymbol d.phase rule 1 0 "global".toList := hasSymbol_of_word
        (symbols 1 0 (by rw [width]; decide) (by rw [height]; decide)) rfl (by decide +kernel)
      rw [phase] at symbol
      exact ⟨rule, later, finished, symbol, named ▸ known atom part scope⟩
    · obtain ⟨opening, b, d, opens, width, height, phase, atom, part, scope, named⟩ :=
        exists_opensPattern tiling 8 .effect (by decide +kernel)
      obtain ⟨rule, later, finished, -, -, symbols, known⟩ := (patterns_as_written read opens).1
        [⟨10, "/ A".toList⟩, ⟨11, "_ x".toList⟩] _ compiled rfl (by rw [height]; rfl) h
      have upper : HasSymbol d.phase rule 1 0 "A".toList := hasSymbol_of_word
        (symbols 1 0 (by rw [width]; decide) (by rw [height]; decide)) rfl (by decide +kernel)
      have lower : HasSymbol d.phase rule 0 1 "_".toList := hasSymbol_of_word
        (symbols 0 1 (by rw [width]; decide) (by rw [height]; decide)) rfl (by decide +kernel)
      rw [phase] at upper lower
      exact ⟨rule, later, finished, upper, lower, named ▸ known atom part scope⟩
  · obtain ⟨opening, b, d, opens, width, height, -⟩ :=
      exists_opensPattern narrow 3 .matching (by decide +kernel)
    have read : lines (scriptOf (narrow.map String.toList)) = .ok (numbered narrow) :=
      eq_ok_of_toOption (by decide +kernel)
    have stops := ((patterns_as_written read opens).2.1 [⟨5, "x global".toList⟩]
      ⟨6, "x".toList⟩ _ rfl (by rw [height]; decide) (by rw [width]; decide +kernel)).1
      (by decide) (by rw [width]; decide +kernel)
    have single : (Text.words "x".toList).length = 1 := by decide +kernel
    rw [stops, width, single]
    rfl
  · obtain ⟨opening, b, d, opens, width, height, -⟩ :=
      exists_opensPattern low 3 .matching (by decide +kernel)
    have read : lines (scriptOf (low.map String.toList)) = .ok (numbered low) :=
      eq_ok_of_toOption (by decide +kernel)
    have stops := ((patterns_as_written read opens).2.1 [⟨5, "x global".toList⟩]
      ⟨6, closing⟩ _ rfl (by rw [height]; decide) (by rw [width]; decide +kernel)).2 rfl
    rw [stops, height]
    rfl
  · obtain ⟨opening, b, d, opens, width, height, -⟩ :=
      exists_opensPattern twofold 3 .matching (by decide +kernel)
    have read : lines (scriptOf (twofold.map String.toList)) = .ok (numbered twofold) :=
      eq_ok_of_toOption (by decide +kernel)
    exact (patterns_as_written read opens).2.2
      [⟨5, "x global".toList⟩, ⟨6, "pattern *".toList⟩] [] ⟨7, "pattern".toList⟩ _ rfl
      (by rw [height]; rfl) (fun _ member => (nomatch member))
      (by rw [List.map_append, List.map_cons, opens.word]; decide +kernel) rfl

end FallingSand.Script
