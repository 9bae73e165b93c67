import FallingSand.Proofs.Script.Heirs

/-!
# Lines in lockstep

Two builders that differ in probabilities, in where references were noted and in the
number of the line accept the same lines, and differ no more afterwards. There is one
lemma for each function of the builder; together they carry the relation through the lines
of a script (`lines_retuned`).
-/

namespace FallingSand.Script.Builder

variable {marked : List Nat} {p : Float} {b b' : Builder} {index index' : Nat}
  {line : List Char} {rule : Rule} {atom : AtomType}

/-! ## Names and references -/

namespace Retuned

theorem scope (h : Retuned marked p b b') : b'.scope = b.scope.retune marked p := by cases h; rfl

theorem previous (h : Retuned marked p b b') :
    b'.previous = b.previous.map (Rule.retune marked p) := by
  cases h
  rfl

/-- The rules of a name are the same ones. -/
theorem rulesNamed? (h : Retuned marked p b b') (name : String) :
    b'.rulesNamed? name = (b.rulesNamed? name).map (Array.map (Rule.retune marked p)) := by
  cases h with
  | intro marks tables symbols =>
    unfold Builder.rulesNamed? Builder.retune
    dsimp only
    rw [tables name, Array.find?_map]
    have closed : (Option.map (AtomType.retune marked p)
          (b.atoms.find? ((fun x => x.name == name) ∘ AtomType.retune marked p))).map
          (fun atom => atom.rules) =
        ((b.atoms.find? (·.name == name)).map (·.rules)).map
          (Array.map (Rule.retune marked p)) := by
      rw [Option.map_map, Option.map_map]
      rfl
    rw [closed]
    cases b.scope with
    | file => exact (Option.map_or ..).symm
    | ruleset openName rules =>
      dsimp only [Scope.retune]
      split
      · rfl
      · exact (Option.map_or ..).symm
    | atom atom part =>
      dsimp only [Scope.retune]
      rw [Option.map_or, Option.map_or]
      congr 2
      show (if atom.name = name then _ else _) = _
      split <;> rfl

/-- Rules that place the same symbols are noted alike. -/
theorem refer (h : Retuned marked p b b') {rule' : Rule}
    (same : unboundSymbols rule' = unboundSymbols rule) :
    Retuned marked p (b.refer rule) (b'.refer rule') := by
  have noted : ∀ symbol, symbol ∈ (b'.refer rule').symbols ↔ symbol ∈ (b.refer rule).symbols := by
    intro symbol
    rw [mem_symbols_refer, mem_symbols_refer, same]
    refine or_congr_left ?_
    cases h with
    | intro marks tables symbols => exact symbols symbol
  cases h with
  | intro marks tables symbols => exact .intro (b := b.refer rule) marks tables noted

theorem finish (h : Retuned marked p b b') (counted : b.Counted) {rule' : Rule} {chosen : Prop}
    [Decidable chosen] (copied : rule' = if chosen then { rule with probability := p } else rule) :
    Parallel (Retuned (marked ++ if chosen then [b.nextId] else []) p) (b.finish rule)
      (b'.finish rule') := by
  have same : rule' = { rule with probability := rule'.probability } := by
    rw [copied]
    split <;> rfl
  have alike : (rule'.hasMap && decide (rule'.effect.size ≠ rule'.area)) =
      (rule.hasMap && decide (rule.effect.size ≠ rule.area)) := by
    rw [same]
    rfl
  unfold Builder.finish
  rw [alike]
  by_cases incomplete : (rule.hasMap && decide (rule.effect.size ≠ rule.area)) = true
  · rw [if_pos incomplete, if_pos incomplete]
    exact .error _ _
  · rw [if_neg incomplete, if_neg incomplete]
    have referred : (b.refer rule).Counted := counted.of_same rfl rfl rfl rfl
    refine .ok (Retuned.pushNew (h.refer ?_) referred copied)
    rw [same]
    rfl

/-- A rule that is finished stays as it is. -/
theorem finish_same (h : Retuned marked p b b') (counted : b.Counted) :
    Parallel (Retuned marked p) (b.finish rule) (b'.finish rule) := by
  have finished : Parallel (Retuned (marked ++ if False then [b.nextId] else []) p)
      (b.finish rule) (b'.finish rule) := h.finish counted rfl
  simpa using finished

/-! ## Lines among rules -/

theorem beginMatch (h : Retuned marked p b b') :
    Parallel (Retuned marked p) (b.beginMatch line) (b'.beginMatch line) := by
  rw [Answers.beginMatch_eq, Answers.beginMatch_eq, h.draft]
  split
  · exact .error _ _
  · exact .read _ fun rule => .ok (h.setDraft _)

theorem beginEffect (h : Retuned marked p b b') :
    Parallel (Retuned marked p) (b.beginEffect index line) (b'.beginEffect index' line) := by
  unfold Builder.beginEffect
  refine .read _ fun written => ?_
  rw [h.draft]
  cases b.draft with
  | none => exact .error _ _
  | some d =>
    cases written with
    | none => exact .ok (h.setBlock _ index index')
    | some numeral => exact .read _ fun probability => .ok (h.setBlock _ index index')

theorem repeatBlock (h : Retuned marked p b b') (counted : b.Counted) :
    Parallel (Retuned (marked ++ b.repeatHeirs marked line) p) (b.repeatBlock line)
      (b'.repeatBlock line) := by
  unfold Builder.repeatBlock repeatHeirs
  cases Form.repetition.read line with
  | error problem => exact .error _ _
  | ok kind =>
    dsimp only [bind, Except.bind]
    rw [h.draft]
    cases before : b.previous with
    | none =>
      rw [show b'.previous = none by rw [h.previous, before]; rfl]
      exact .error _ _
    | some previous =>
      have tuned : b'.previous = some (previous.retune marked p) := by
        rw [h.previous, before]
        rfl
      rw [tuned]
      cases kind with
      | matching =>
        dsimp only
        split
        · exact .error _ _
        · have same : rematched (previous.retune marked p) = rematched previous := by
            rw [Rule.retune_eq]
            rfl
          have rematch : Retuned marked p
              { b with draft := some { rule := rematched previous } }
              { b' with draft := some { rule := rematched (previous.retune marked p) } } := by
            rw [same]
            exact h.setDraft _
          rw [tuned, before] at rematch
          rw [List.append_nil]
          exact .ok rematch
      | effect =>
        dsimp only
        cases b.draft with
        | none => exact .error _ _
        | some d =>
          have closed : Counted { b with draft := none } := counted.of_same rfl rfl rfl rfl
          have finished : Parallel
              (Retuned (marked ++ if previous.id ∈ marked then [b.nextId] else []) p)
              (Builder.finish { b with draft := none } (reeffected d.rule previous))
              (Builder.finish { b' with draft := none }
                (reeffected d.rule (previous.retune marked p))) :=
            (h.setDraft none).finish closed (by rw [Rule.retune]; split <;> rfl)
          rw [tuned, before] at finished
          exact finished

theorem inherit_eq (b : Builder) (line : List Char) : b.inherit line =
    if b.draft.isSome then .error .ruleOpen
    else do
      let (name, flags) ← Form.inherit.read line
      let probability ← flaggedProbability flags
      match b.rulesNamed? name with
      | none => return { b with warnings := b.warnings ++ [.nothingInherited name] }
      | some rules =>
        return rules.toList.foldl (fun b rule => b.pushNew (inheritedCopy probability rule)) b := by
  unfold Builder.inherit
  split
  · rfl
  · simp only [Array.foldl_toList]
    rfl

/-- Copies of marked rules are marked, unless they get a probability of their own. -/
theorem inheritAll (h : Retuned marked p b b') (counted : b.Counted) (probability : Option Float)
    (rules : List Rule) :
    Retuned (marked ++ numbersOf (fun rule => probability.isNone && decide (rule.id ∈ marked))
        b.nextId rules) p
      (rules.foldl (fun b rule => b.pushNew (inheritedCopy probability rule)) b)
      ((rules.map (Rule.retune marked p)).foldl
        (fun b rule => b.pushNew (inheritedCopy probability rule)) b') := by
  rw [List.foldl_map]
  refine h.pushAll counted _ fun rule _ => ?_
  unfold Rule.retune
  cases probability with
  | some q =>
    simp only [Option.isNone_some, Bool.false_and, Bool.false_eq_true, if_false]
    split <;> rfl
  | none =>
    simp only [Option.isNone_none, Bool.true_and, decide_eq_true_eq]
    split <;> rfl

theorem inherit (h : Retuned marked p b b') (counted : b.Counted) :
    Parallel (Retuned (marked ++ b.inheritHeirs marked line) p) (b.inherit line)
      (b'.inherit line) := by
  rw [inherit_eq, inherit_eq, h.draft]
  by_cases ruleOpen : b.draft.isSome = true
  · rw [if_pos ruleOpen, if_pos ruleOpen]
    exact .error _ _
  rw [if_neg ruleOpen, if_neg ruleOpen]
  unfold inheritHeirs
  cases Form.inherit.read line with
  | error problem => exact .error _ _
  | ok header =>
    obtain ⟨name, flags⟩ := header
    dsimp only [bind, Except.bind]
    cases flaggedProbability flags with
    | error problem => exact .error _ _
    | ok probability =>
      dsimp only
      rw [h.rulesNamed? name]
      cases b.rulesNamed? name with
      | none =>
        have unmarked : numbersOf (fun rule => decide (rule.id ∈ marked)) b.nextId
            ((none : Option (Array Rule)).getD #[]).toList = [] := rfl
        have noted : Retuned marked p
            { b with warnings := b.warnings ++ [.nothingInherited name] }
            { b' with warnings := b'.warnings ++ [.nothingInherited name] } := by
          cases h with
          | intro marks tables symbols =>
            exact .intro
              (b := { b with warnings := b.warnings ++ [.nothingInherited name] })
              marks tables symbols
        rw [h.draft] at noted
        cases probability with
        | none =>
          rw [unmarked, List.append_nil]
          exact .ok noted
        | some q =>
          rw [List.append_nil]
          exact .ok noted
      | some rules =>
        have copied := h.inheritAll counted probability rules.toList
        dsimp only [Option.map_some]
        rw [Array.toList_map]
        cases probability with
        | none =>
          exact .ok (by simpa using copied)
        | some q =>
          rw [List.append_nil]
          exact .ok (by simpa [numbersOf_false] using copied)

/-- A line that adds to the open atom adds to both alike. -/
theorem changeAtom (h : Retuned marked p b b') {part : Option Part}
    {add : AtomType → Except Problem AtomType}
    (alike : Parallel (fun atom atom' => atom' = atom.retune marked p) (add atom)
      (add (atom.retune marked p))) :
    Parallel (Retuned marked p) (do return { b with scope := .atom (← add atom) part })
      (do return { b' with scope := .atom (← add (atom.retune marked p)) part }) := by
  refine alike.bind fun changed changed' same => ?_
  subst same
  cases h with
  | intro marks tables symbols =>
    exact .ok (.intro (b := { b with scope := .atom changed part }) marks tables symbols)

theorem addExtension : Parallel (fun atom atom' => atom' = atom.retune marked p)
    (addExtension line atom) (addExtension line (atom.retune marked p)) := by
  unfold Script.addExtension
  refine .read _ fun header => ?_
  obtain ⟨name, parameters⟩ := header
  dsimp only
  cases Movement.ofName? name with
  | none => exact .error _ _
  | some movement =>
    dsimp only
    split
    · exact .error _ _
    · split
      · exact .ok rfl
      · exact .read _ fun probability => .ok rfl

theorem extendAtom (h : Retuned marked p b b') :
    Parallel (Retuned marked p)
      (match b.scope with
        | .atom atom part => do
          return { b with scope := .atom (← Script.addExtension line atom) part }
        | _ => .error (misplaced line))
      (match b'.scope with
        | .atom atom part => do
          return { b' with scope := .atom (← Script.addExtension line atom) part }
        | _ => .error (misplaced line)) := by
  rw [h.scope]
  cases b.scope with
  | file => exact .error _ _
  | ruleset name rules => exact .error _ _
  | atom atom part => exact h.changeAtom addExtension

theorem ruleLine (h : Retuned marked p b b') (counted : b.Counted) :
    Parallel (Retuned (marked ++ b.ruleHeirs marked line) p) (b.ruleLine index line)
      (b'.ruleLine index' line) := by
  unfold Builder.ruleLine ruleHeirs
  generalize keyword line = word
  split
  · exact h.repeatBlock counted
  · exact h.inherit counted
  · rw [List.append_nil]
    split
    · exact h.beginMatch
    · exact h.beginEffect
    · contradiction
    · contradiction
    · exact h.extendAtom
    · have misplaced : Parallel (Retuned marked p) (.error (misplaced line))
          (.error (misplaced line)) := .error _ _
      simp only [*]

/-! ## Lines outside the blocks of rules -/

theorem addProperty : Parallel (fun atom atom' => atom' = atom.retune marked p)
    (addProperty line atom) (addProperty line (atom.retune marked p)) := by
  unfold Script.addProperty
  refine .read _ fun header => ?_
  obtain ⟨constant, name, value⟩ := header
  dsimp only
  split
  · split
    · exact .ok rfl
    · exact .read _ fun color => .ok rfl
  split
  · split
    · exact .ok rfl
    · exact .error _ _
  split
  · exact .error _ _
  · split
    · exact .ok rfl
    · exact .ok rfl

theorem addDefinition : Parallel (fun atom atom' => atom' = atom.retune marked p)
    (addDefinition line atom) (addDefinition line (atom.retune marked p)) :=
  .read _ fun _ => .ok rfl

theorem addInit : Parallel (fun atom atom' => atom' = atom.retune marked p)
    (addInit line atom) (addInit line (atom.retune marked p)) :=
  .read _ fun _ => .read _ fun _ => .ok rfl

theorem addColorRule : Parallel (fun atom atom' => atom' = atom.retune marked p)
    (addColorRule line atom) (addColorRule line (atom.retune marked p)) := by
  unfold Script.addColorRule
  dsimp only
  split
  · exact .error _ _
  · split
    · exact .read _ fun _ => .read _ fun _ => .read _ fun _ => .read _ fun _ => .ok rfl
    · exact .error _ _

theorem bodyLine (h : Retuned marked p b b') (counted : b.Counted) (outside : b.Outside) :
    Parallel (Retuned (marked ++ b.heirs marked line) p) (b.bodyLine index line)
      (b'.bodyLine index' line) := by
  have rules : b.AdmitsRules → Parallel (Retuned (marked ++ b.heirs marked line) p)
      (b.ruleLine index line) (b'.ruleLine index' line) := by
    intro admits
    rw [heirs, if_pos ⟨admits, outside⟩]
    exact h.ruleLine counted
  have others : ¬b.AdmitsRules → marked ++ b.heirs marked line = marked := by
    intro other
    rw [heirs_of_not_admits other, List.append_nil]
  unfold AdmitsRules Builder.inRuleset part? at rules others
  unfold Builder.bodyLine
  rw [h.scope]
  cases scope : b.scope with
  | file => exact .error _ _
  | ruleset name list =>
    rw [scope] at rules
    exact rules (.inl rfl)
  | atom atom part =>
    rw [scope] at rules others
    cases part with
    | none => exact .error _ _
    | some part =>
      cases part with
      | update => exact rules (.inr rfl)
      | property =>
        rw [others (by simp)]
        exact h.changeAtom addProperty
      | definition =>
        rw [others (by simp)]
        exact h.changeAtom addDefinition
      | init =>
        rw [others (by simp)]
        exact h.changeAtom addInit
      | color =>
        rw [others (by simp)]
        exact h.changeAtom addColorRule

theorem openAtom (h : Retuned marked p b b') :
    Parallel (Retuned marked p) (b.openAtom line) (b'.openAtom line) := by
  unfold Builder.openAtom
  rw [h.inFile]
  split
  · exact .error _ _
  refine .read _ fun header => ?_
  obtain ⟨name, aliasName⟩ := header
  cases h with
  | @intro rulesets effectLine references marks tables symbols =>
    have known : (b.retune marked p).atoms.any (·.name == name) =
        b.atoms.any (·.name == name) := Array.any_map ..
    have count : (b.retune marked p).atoms.size = b.atoms.size := Array.size_map ..
    dsimp only
    rw [known, count]
    split
    · exact .error _ _
    let atom : AtomType :=
      { id := UInt16.ofNat b.atoms.size, name, aliasName
        definitions := Table.ofList b.globals }
    -- it has no rules yet
    have same : atom.retune marked p = atom := by simp [AtomType.retune, atom]
    have opened : Retuned marked p { b with scope := .atom atom none, previous := none }
        { b.retune marked p with
          rulesets, effectLine, references
          scope := .atom (atom.retune marked p) none, previous := none } :=
      .intro marks tables symbols
    rw [same] at opened
    exact .ok opened

theorem openRuleset (h : Retuned marked p b b') :
    Parallel (Retuned marked p) (b.openRuleset line) (b'.openRuleset line) := by
  unfold Builder.openRuleset
  rw [h.inFile]
  split
  · exact .error _ _
  refine .read _ fun name => ?_
  cases h with
  | @intro rulesets effectLine references marks tables symbols =>
    have opened : Retuned marked p { b with scope := .ruleset name #[], previous := none }
        { b.retune marked p with
          rulesets, effectLine, references
          scope := .ruleset name (#[].map (Rule.retune marked p)), previous := none } :=
      .intro marks tables symbols
    rw [Array.map_empty] at opened
    exact .ok opened

theorem openPart (h : Retuned marked p b b') :
    Parallel (Retuned marked p) (b.openPart line) (b'.openPart line) := by
  unfold Builder.openPart
  rw [h.scope]
  cases b.scope with
  | file => exact .error _ _
  | ruleset name rules => exact .error _ _
  | atom atom part =>
    cases part with
    | some part => exact .error _ _
    | none =>
      refine .read _ fun name => ?_
      cases Part.ofName? name with
      | none => exact .error _ _
      | some part =>
        cases h with
        | intro marks tables symbols =>
          exact .ok (.intro (b := { b with scope := .atom atom (some part) }) marks tables symbols)

theorem outerLine (h : Retuned marked p b b') (counted : b.Counted) (outside : b.Outside) :
    Parallel (Retuned (marked ++ b.heirs marked line) p) (b.outerLine index line)
      (b'.outerLine index' line) := by
  have body : Parallel (Retuned (marked ++ b.heirs marked line) p) (b.bodyLine index line)
      (b'.bodyLine index' line) := h.bodyLine counted outside
  have others : keyword line ≠ "repeat" → keyword line ≠ "inherit" →
      marked ++ b.heirs marked line = marked := by
    intro notRepeat notInherit
    rw [heirs_of_keyword notRepeat notInherit, List.append_nil]
  unfold Builder.outerLine
  generalize keyword line = word at others
  split
  · rw [others (by decide) (by decide)]
    refine .read _ fun entry => ?_
    cases h with
    | intro marks tables symbols =>
      exact .ok (.intro (b := { b with globals := b.globals ++ [entry] }) marks tables symbols)
  · rw [others (by decide) (by decide)]
    refine .read _ fun corners => ?_
    cases h with
    | intro marks tables symbols =>
      exact .ok (.intro
        (b := { b with preload := b.preload ++ [.between corners.1 (corners.2.getD corners.1)] })
        marks tables symbols)
  · rw [others (by decide) (by decide)]
    refine .read _ fun entry => ?_
    cases h with
    | intro marks tables symbols =>
      exact .ok (.intro
        (b := { b with defaults := b.defaults.insert entry.1 entry.2.toFloat.toFloat32 })
        marks tables symbols)
  · rw [others (by decide) (by decide)]
    exact h.openAtom
  · rw [others (by decide) (by decide)]
    exact h.openRuleset
  · rw [others (by decide) (by decide)]
    exact h.openPart
  · exact body

/-! ## Every line -/

/-- The end of a section, of an atom or of a rule set. -/
theorem closeScope (h : Retuned marked p b b') (draft : b.draft = none) :
    Parallel (Retuned marked p) b.close b'.close := by
  have draft' : b'.draft = none := h.draft.trans draft
  unfold Builder.close
  simp only [draft, draft', h.scope]
  cases h with
  | @intro rulesets effectLine references marks tables symbols =>
    cases b.scope with
    | file => exact .error _ _
    | ruleset name rules =>
      refine .ok (.intro
        (b := { b with rulesets := b.rulesets.insert name rules, scope := .file, draft := none })
        marks (fun other => ?_) symbols)
      rw [Table.get?_insert, Table.get?_insert, tables other]
      split <;> rfl
    | atom atom part =>
      cases part with
      | some part =>
        exact .ok (.intro (b := { b with scope := .atom atom none, draft := none }) marks tables
          symbols)
      | none =>
        have closed : Retuned marked p
            { b with atoms := b.atoms.push atom, scope := .file, draft := none }
            { b.retune marked p with
              rulesets, effectLine, references, draft := none, scope := .file
              atoms := (b.atoms.push atom).map (AtomType.retune marked p) } :=
          .intro marks tables symbols
        rw [Array.map_push] at closed
        exact .ok closed

theorem close (h : Retuned marked p b b') (counted : b.Counted) :
    Parallel (Retuned marked p) b.close b'.close := by
  cases draft : b.draft with
  | none => exact h.closeScope draft
  | some d =>
    have draft' : b'.draft = some d := h.draft.trans draft
    unfold Builder.close
    simp only [draft, draft']
    cases d.phase with
    | between => exact .error _ _
    | matching => exact .ok (h.setDraft _)
    | effect =>
      have closed : Counted { b with draft := none } := counted.of_same rfl rfl rfl rfl
      exact (h.setDraft none).finish_same closed

theorem blockLine (h : Retuned marked p b b') {d : Draft} :
    Parallel (Retuned marked p) (b.blockLine index d line) (b'.blockLine index' d line) := by
  unfold Builder.blockLine
  rw [h.inRuleset]
  split
  · refine .read _ fun d' => ?_
    by_cases effect : d.phase = .effect
    · rw [if_pos effect, if_pos effect]
      exact .ok (h.setBlock _ index index')
    · rw [if_neg effect, if_neg effect]
      exact .ok (h.setDraft _)
  split
  · exact .read _ fun d' => .ok (h.setDraft _)
  · exact .read _ fun d' => .ok (h.setDraft _)

theorem anyLine (h : Retuned marked p b b') (counted : b.Counted) (index index' : Nat)
    (text : List Char) :
    Parallel (Retuned (marked ++ b.heirs marked text) p) (b.line index text)
      (b'.line index' text) := by
  have closed : text = ['\x7d'] → Parallel (Retuned (marked ++ b.heirs marked text) p) b.close
      b'.close := by
    rintro rfl
    rw [heirs_of_keyword (by decide) (by decide), List.append_nil]
    exact h.close counted
  unfold Builder.line
  cases draft : b.draft with
  | none =>
    simp only [h.draft.trans draft]
    split
    · exact closed ‹_›
    · exact h.outerLine counted (outside_of_free draft)
  | some d =>
    simp only [h.draft.trans draft]
    by_cases rows : 0 < d.rowsLeft
    · have inside : ¬b.Outside := fun outside => by
        have := (outside d draft).1
        omega
      rw [if_pos rows, if_pos rows, heirs_of_not_outside inside, List.append_nil]
      split
      · exact .error _ _
      · exact .read _ fun d' => .ok (h.setDraft _)
    rw [if_neg rows, if_neg rows]
    split
    · exact closed ‹_›
    by_cases between : d.phase = .between
    · rw [if_pos between, if_pos between]
      exact h.outerLine counted (outside_of_between draft (by omega) between)
    · have inside : ¬b.Outside := fun outside => between (outside d draft).2
      rw [if_neg between, if_neg between, heirs_of_not_outside inside, List.append_nil]
      exact h.blockLine

end Retuned

theorem lines_retuned (h : Retuned marked p b b') (counted : b.Counted) (index index' : Nat)
    (texts : List (List Char)) :
    Parallel (Retuned (b.heirsOf index marked texts) p) (b.lines index texts)
      (b'.lines index' texts) := by
  induction texts generalizing b b' index index' marked with
  | nil => exact .ok h
  | cons text rest ih =>
    unfold Builder.lines heirsOf
    have first := h.anyLine counted index index' text
    generalize read : b.line index text = result at first
    generalize read' : b'.line index' text = result' at first
    cases first with
    | error problem problem' => exact .error _ _
    | ok next => exact ih next (counted.next (next_of_line read)) _ _

theorem lines_cons (text : List Char) (rest : List (List Char)) :
    b.lines index (text :: rest) =
      (b.line index text).mapError (fun problem => (index, problem)) >>=
        fun b' => b'.lines (index + 1) rest := by
  rw [lines]
  cases b.line index text <;> rfl

theorem lines_append (before after : List (List Char)) :
    b.lines index (before ++ after) =
      b.lines index before >>= fun b' => b'.lines (index + before.length) after := by
  induction before generalizing b index with
  | nil => rfl
  | cons text rest ih =>
    rw [List.cons_append, lines_cons, lines_cons, bind_assoc]
    refine congrArg _ (funext fun b' => ?_)
    rw [ih, List.length_cons, Nat.add_right_comm, Nat.add_assoc]

/-- The lines of a script from some point on. -/
theorem lines_of_reached {before : List (List Char)} (reached : Builder.lines {} 0 before = .ok b)
    (more : List (List Char)) :
    Builder.lines {} 0 (before ++ more) = b.lines before.length more := by
  rw [lines_append, reached, Nat.zero_add]
  rfl

/-- A property of what lines lead to can be decided. -/
theorem exists_of_any {m : Except (Nat × Problem) Builder} {P : Builder → Bool}
    (h : m.toOption.any P = true) : ∃ b, m = .ok b ∧ P b = true := by
  cases m with
  | error stop => cases h
  | ok b => exact ⟨b, rfl, h⟩

theorem Counted.lines {texts : List (List Char)} (counted : b.Counted)
    (h : b.lines index texts = .ok b') : b'.Counted :=
  invariant_of_lines (fun next counted => counted.next next) counted h

/-- Where nothing is marked nothing differs later. -/
theorem Retuned.lines_nil (h : Retuned [] p b b') (counted : b.Counted)
    (index index' : Nat) (texts : List (List Char)) :
    Parallel (Retuned [] p) (b.lines index texts) (b'.lines index' texts) := by
  have read := lines_retuned h counted index index' texts
  rwa [heirsOf_nil] at read

end FallingSand.Script.Builder
