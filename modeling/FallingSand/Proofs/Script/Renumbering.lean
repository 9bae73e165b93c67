import FallingSand.Proofs.Script.Lockstep

/-!
# Lines under other numbers

A builder holds the numbers of lines in two places, the line of the last effect block and
the lines of noted symbols, and it does nothing with them but ask whether two are equal. So
a script is compiled in the same way under other numbers, as long as different lines keep
different ones: each function of the builder commutes with the renumbering, and so does a
line (`renumber_line`).
-/

namespace FallingSand.Script.Builder

/-- The builder with other numbers for its lines. -/
def renumber (f : Nat → Nat) (b : Builder) : Builder :=
  { b with
    effectLine := f b.effectLine
    references := b.references.map fun (line, symbol) => (f line, symbol) }

variable {f : Nat → Nat} {b : Builder} {index : Nat} {line : List Char}

/-- What is read of the line alone has nothing to do with numbers. -/
theorem read_renumber {α : Type} (m : Except Problem α) {g h : α → Except Problem Builder}
    (next : ∀ x, g x = (h x).map (renumber f)) : m >>= g = (m >>= h).map (renumber f) := by
  cases m with
  | error problem => rfl
  | ok x => exact next x

/-! ## Lines among rules -/

theorem renumber_refer (inj : Function.Injective f) (rule : Rule) :
    (b.renumber f).refer rule = (b.refer rule).renumber f := by
  unfold refer renumber
  dsimp only
  congr 1
  generalize b.references = references
  induction unboundSymbols rule generalizing references with
  | nil => rfl
  | cons symbol rest ih =>
    have injPair : Function.Injective fun entry : Nat × String => (f entry.1, entry.2) :=
      inj.prodMap Function.injective_id
    have known : (references.map fun (line, symbol) => (f line, symbol)).contains
        (f b.effectLine, symbol) = references.contains (b.effectLine, symbol) := by
      rw [Bool.eq_iff_iff, List.contains_iff_mem, List.contains_iff_mem]
      exact List.mem_map_of_injective injPair (a := (b.effectLine, symbol))
    rw [List.foldl_cons, List.foldl_cons, ← ih, known]
    split
    · rfl
    · rw [List.map_append]
      rfl

theorem renumber_finish (inj : Function.Injective f) (rule : Rule) :
    (b.renumber f).finish rule = (b.finish rule).map (renumber f) := by
  unfold finish
  split
  · rfl
  · rw [renumber_refer inj]
    rfl

theorem renumber_beginMatch :
    (b.renumber f).beginMatch line = (b.beginMatch line).map (renumber f) := by
  rw [Answers.beginMatch_eq, Answers.beginMatch_eq, show (b.renumber f).draft = b.draft from rfl]
  split
  · rfl
  · exact read_renumber _ fun rule => rfl

theorem renumber_beginEffect :
    (b.renumber f).beginEffect (f index) line = (b.beginEffect index line).map (renumber f) := by
  unfold beginEffect
  refine read_renumber _ fun written => ?_
  rw [show (b.renumber f).draft = b.draft from rfl]
  cases b.draft with
  | none => rfl
  | some d =>
    cases written with
    | none => rfl
    | some numeral => exact read_renumber _ fun probability => rfl

theorem renumber_repeatBlock (inj : Function.Injective f) :
    (b.renumber f).repeatBlock line = (b.repeatBlock line).map (renumber f) := by
  unfold repeatBlock
  refine read_renumber _ fun kind => ?_
  rw [show (b.renumber f).previous = b.previous from rfl,
    show (b.renumber f).draft = b.draft from rfl]
  cases b.previous with
  | none => rfl
  | some previous =>
    cases kind with
    | matching =>
      dsimp only
      split <;> rfl
    | effect =>
      cases b.draft with
      | none => rfl
      | some d =>
        have closed : (renumber f { b with draft := none }).finish (reeffected d.rule previous) =
            (finish { b with draft := none } (reeffected d.rule previous)).map (renumber f) :=
          renumber_finish inj _
        exact closed

theorem renumber_copies (copy : Rule → Rule) (rules : List Rule) (b : Builder) :
    rules.foldl (fun b rule => b.pushNew (copy rule)) (b.renumber f) =
      (rules.foldl (fun b rule => b.pushNew (copy rule)) b).renumber f := by
  induction rules generalizing b with
  | nil => rfl
  | cons rule rest ih => exact ih (b.pushNew (copy rule))

theorem renumber_inherit :
    (b.renumber f).inherit line = (b.inherit line).map (renumber f) := by
  rw [Retuned.inherit_eq, Retuned.inherit_eq, show (b.renumber f).draft = b.draft from rfl]
  split
  · rfl
  refine read_renumber _ fun header => read_renumber _ fun probability => ?_
  rw [show (b.renumber f).rulesNamed? header.1 = b.rulesNamed? header.1 from rfl]
  cases b.rulesNamed? header.1 with
  | none => rfl
  | some rules => exact congrArg Except.ok (renumber_copies _ rules.toList b)

theorem renumber_ruleLine (inj : Function.Injective f) :
    (b.renumber f).ruleLine (f index) line = (b.ruleLine index line).map (renumber f) := by
  unfold ruleLine
  split
  · exact renumber_beginMatch
  · exact renumber_beginEffect
  · exact renumber_repeatBlock inj
  · exact renumber_inherit
  · rw [show (b.renumber f).scope = b.scope from rfl]
    cases b.scope with
    | file | ruleset => rfl
    | atom atom part => exact read_renumber _ fun changed => rfl
  · rfl

/-! ## Other lines -/

theorem renumber_bodyLine (inj : Function.Injective f) :
    (b.renumber f).bodyLine (f index) line = (b.bodyLine index line).map (renumber f) := by
  unfold bodyLine
  rw [show (b.renumber f).scope = b.scope from rfl]
  cases b.scope with
  | file => rfl
  | ruleset name rules => exact renumber_ruleLine inj
  | atom atom part =>
    cases part with
    | none => rfl
    | some part =>
      cases part with
      | update => exact renumber_ruleLine inj
      | property | definition | init | color => exact read_renumber _ fun changed => rfl

theorem renumber_openAtom : (b.renumber f).openAtom line = (b.openAtom line).map (renumber f) := by
  unfold openAtom
  rw [show (b.renumber f).inFile = b.inFile from rfl]
  split
  · rfl
  refine read_renumber _ fun header => ?_
  obtain ⟨name, aliasName⟩ := header
  rw [show (b.renumber f).atoms = b.atoms from rfl]
  dsimp only
  split <;> rfl

theorem renumber_openRuleset :
    (b.renumber f).openRuleset line = (b.openRuleset line).map (renumber f) := by
  unfold openRuleset
  rw [show (b.renumber f).inFile = b.inFile from rfl]
  split
  · rfl
  · exact read_renumber _ fun name => rfl

theorem renumber_openPart : (b.renumber f).openPart line = (b.openPart line).map (renumber f) := by
  unfold openPart
  rw [show (b.renumber f).scope = b.scope from rfl]
  split
  · refine read_renumber _ fun name => ?_
    cases Part.ofName? name <;> rfl
  · rfl

theorem renumber_outerLine (inj : Function.Injective f) :
    (b.renumber f).outerLine (f index) line = (b.outerLine index line).map (renumber f) := by
  unfold outerLine
  split
  · exact read_renumber _ fun entry => rfl
  · exact read_renumber _ fun corners => rfl
  · exact read_renumber _ fun entry => rfl
  · exact renumber_openAtom
  · exact renumber_openRuleset
  · exact renumber_openPart
  · exact renumber_bodyLine inj

theorem renumber_close (inj : Function.Injective f) :
    (b.renumber f).close = b.close.map (renumber f) := by
  unfold close
  rw [show (b.renumber f).draft = b.draft from rfl, show (b.renumber f).scope = b.scope from rfl]
  cases b.draft with
  | none =>
    cases b.scope with
    | file | ruleset => rfl
    | atom atom part => cases part <;> rfl
  | some d =>
    dsimp only
    cases d.phase with
    | between | matching => rfl
    | effect => exact renumber_finish inj (b := { b with draft := none }) d.rule

theorem renumber_blockLine {d : Draft} :
    (b.renumber f).blockLine (f index) d line = (b.blockLine index d line).map (renumber f) := by
  unfold blockLine
  split
  · refine read_renumber _ fun opened => ?_
    by_cases effect : d.phase = .effect
    · rw [if_pos effect, if_pos effect]
      rfl
    · rw [if_neg effect, if_neg effect]
      rfl
  split
  · exact read_renumber _ fun changed => rfl
  · exact read_renumber _ fun changed => rfl

/-- A line does the same under other numbers. -/
theorem renumber_line (inj : Function.Injective f) (b : Builder) (index : Nat)
    (text : List Char) :
    (b.renumber f).line (f index) text = (b.line index text).map (renumber f) := by
  unfold line
  rw [show (b.renumber f).draft = b.draft from rfl]
  dsimp only
  cases b.draft with
  | none =>
    dsimp only
    split
    · exact renumber_close inj
    · exact renumber_outerLine inj
  | some d =>
    dsimp only
    split
    · split
      · rfl
      · exact read_renumber _ fun row => rfl
    split
    · exact renumber_close inj
    split
    · exact renumber_outerLine inj
    · exact renumber_blockLine

end FallingSand.Script.Builder
