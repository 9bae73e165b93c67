import FallingSand.Proofs.Expr.Brackets
import FallingSand.Proofs.Script.Words
import Mathlib.Data.List.Forall2

/-!
# Targets of steps

Three kinds of lines update a property of a cell: they set it, increase it or clamp it. Each
is a word, the property in brackets and an expression, or two of them. The bracket of the
target and the brackets of expressions are read by one scanner, but only those of expressions
may have any blanks at their ends: the scanner of the line has to come to the closing mark
by itself (`Snug`).
-/

namespace FallingSand.Script

open FallingSand.Expr (Mode PropertyRef Snug property? compile_bracket compile_plain
  property?_of_compile
  slots_bracket property?_eq_some eq_nil_iff_snug suffix_of_scan)
open Text (Scanner isBlank trim trimStart)
open Text.Scanner

/-! ## A property between brackets -/

section Bracketed

variable {inner rest text left : List Char} {ref : PropertyRef}

/-- Nothing of a bracket's inside goes beyond its end. -/
theorem stopsBefore_scan : StopsBefore ']' PropertyRef.scan :=
  .of_bind (.of_layout rfl) fun _ => .of_bind (.of_identifier rfl) fun _ =>
    .of_bind (.of_layout rfl) fun _ => .of_bind (.of_optional <|
      .of_bind (.of_char (by decide)) fun _ => .of_bind (.of_layout rfl) fun _ =>
      .of_bind (.of_bind (.of_naturalUpTo rfl _) fun _ => .of_pure _) fun _ =>
      .of_bind (.of_mark rfl (by decide)) fun _ =>
      .of_bind (.of_bind (.of_naturalUpTo rfl _) fun _ => .of_pure _) fun _ =>
      .of_pure _) fun _ => .of_pure _

/-- Between brackets the scanner has to read everything. -/
theorem bracketed_exact (closed : ']' ∉ inner) :
    bracketed ('[' :: (inner ++ ']' :: rest)) = some (ref, left) ↔
      PropertyRef.scan inner = some (ref, []) ∧ left = rest := by
  rw [bracketed, bind_apply, char_cons, Option.bind_some, bind_apply, stopsBefore_scan]
  cases scanned : PropertyRef.scan inner with
  | none => exact ⟨fun h => (nomatch h), fun h => (nomatch h.1)⟩
  | some result =>
    obtain ⟨read, unread⟩ := result
    rw [Option.map_some, Option.bind_some, bind_apply]
    cases unread with
    | nil =>
      rw [List.nil_append, char_cons, Option.bind_some, pure_apply]
      simp only [Option.some.injEq, Prod.mk.injEq, and_true, eq_comm]
    | cons c others =>
      have other : c ≠ ']' := fun same =>
        closed (same ▸ (suffix_of_scan scanned).subset List.mem_cons_self)
      have stuck : char ']' (c :: others ++ ']' :: rest) = none := if_neg other
      rw [stuck]
      exact ⟨fun h => (nomatch h), fun h => (nomatch h.1)⟩

theorem bracketed_eq_some (h : bracketed text = some (ref, left)) :
    ∃ inner, ']' ∉ inner ∧ PropertyRef.scan inner = some (ref, []) ∧
      text = '[' :: (inner ++ ']' :: left) := by
  have parts := h
  rw [bracketed, bind_apply] at parts
  obtain ⟨⟨⟨⟩, first⟩, opened, parts⟩ := Option.bind_eq_some_iff.mp parts
  rw [bind_apply] at parts
  obtain ⟨⟨read, second⟩, scanned, parts⟩ := Option.bind_eq_some_iff.mp parts
  rw [bind_apply] at parts
  obtain ⟨⟨⟨⟩, third⟩, closes, parts⟩ := Option.bind_eq_some_iff.mp parts
  have mark : ']' ∈ first := by
    refine (suffix_of_scan scanned).subset ?_
    rw [show second = ']' :: third from char_eq_some closes]
    exact List.mem_cons_self
  obtain ⟨inner, rest, rfl, closed⟩ := List.eq_append_cons_of_mem mark
  rw [char_eq_some opened] at h ⊢
  obtain ⟨whole, rfl⟩ := (bracketed_exact closed).mp h
  exact ⟨inner, closed, whole, rfl⟩

end Bracketed

/-! ## Lines that update a property -/

/-- The kinds of lines that update a property. -/
inductive Verb where
  | set | increase | clamp
  deriving DecidableEq, Repr

namespace Verb

/-- The word that the line starts with. -/
def word : Verb → String
  | .set => "set"
  | .increase => "inc"
  | .clamp => "clamp"

def form : Verb → Form (PropertyRef × List Char)
  | .set => Form.set
  | .increase => Form.increase
  | .clamp => Form.clamp

/-- What stands between the property and the expressions. -/
def between : Verb → Scanner Unit
  | .set => mark '='
  | .increase => do layout1; leading "by"
  | .clamp => do layout1; leading "in"

/-- The updates that a line makes, each with the text of its expression. -/
def changes (text : List Char) : Verb → Option (List (Update × List Char))
  | .set => some [(.set, text)]
  | .increase => some [(.increase, text)]
  | .clamp =>
    match splitTopLevel text with
    | [low, high] => some [(.atLeast, low), (.atMost, high)]
    | _ => none

variable {verb : Verb} {line : List Char} {ref : PropertyRef} {text : List Char}

theorem scanner_form (verb : Verb) : verb.form.scanner = (do
    leading verb.word
    let ref ← bracketed
    verb.between
    return (ref, ← rest)) := by
  cases verb with
  | set => rfl
  | increase | clamp =>
    simp only [form, Form.increase, Form.clamp, Form.propertyThen, word, between,
      bind_assoc]

/-- What a line of the form consists of. All of it is read. -/
theorem scanner_form_eq_some {left : List Char} :
    verb.form.scanner line = some ((ref, text), left) ↔ left = [] ∧ ∃ gap inner after,
      IsRun isLayout gap ∧ ']' ∉ inner ∧ PropertyRef.scan inner = some (ref, []) ∧
      verb.between after = some ((), text) ∧
      line = verb.word.toList ++ (gap ++ '[' :: (inner ++ ']' :: after)) := by
  rw [scanner_form, bind_apply, Option.bind_eq_some_iff]
  constructor
  · rintro ⟨⟨⟨⟩, first⟩, word, others⟩
    obtain ⟨⟨ref', second⟩, target, others⟩ := Option.bind_eq_some_iff.mp others
    obtain ⟨⟨⟨⟩, third⟩, between, others⟩ := Option.bind_eq_some_iff.mp others
    cases others
    obtain ⟨gap, layout, -, rfl⟩ := leading_eq_some.mp word
    obtain ⟨inner, closed, scanned, rfl⟩ := bracketed_eq_some target
    exact ⟨rfl, gap, inner, second, layout, closed, scanned, between, rfl⟩
  · rintro ⟨rfl, gap, inner, after, layout, closed, scanned, between, rfl⟩
    refine ⟨((), '[' :: (inner ++ ']' :: after)),
      leading_eq_some.mpr ⟨gap, layout, ends_cons rfl, rfl⟩, ?_⟩
    rw [bind_apply, (bracketed_exact closed).mpr ⟨scanned, rfl⟩, Option.bind_some, bind_apply,
      between]
    rfl

theorem read_form : verb.form.read line = .ok (ref, text) ↔ ∃ gap inner after,
    IsRun isLayout gap ∧ ']' ∉ inner ∧ PropertyRef.scan inner = some (ref, []) ∧
      verb.between after = some ((), text) ∧
      line = verb.word.toList ++ (gap ++ '[' :: (inner ++ ']' :: after)) := by
  have all : verb.form.scanner line = some ((ref, text), []) ↔ _ := scanner_form_eq_some
  rw [eq_self, true_and] at all
  rw [← all, Form.read]
  cases scanned : verb.form.scanner line with
  | none => exact ⟨fun h => (nomatch h), fun h => (nomatch h)⟩
  | some result =>
    obtain ⟨⟨ref', text'⟩, left⟩ := result
    obtain ⟨rfl, -⟩ := scanner_form_eq_some.mp scanned
    simp [trim, trimStart, Text.trimEnd]

/-- The parts of a line of the form are found again when it is read. -/
theorem read_form_append {gap inner after : List Char} (layout : IsRun isLayout gap)
    (closed : ']' ∉ inner) :
    verb.form.read (verb.word.toList ++ (gap ++ '[' :: (inner ++ ']' :: after))) =
      .ok (ref, text) ↔
      PropertyRef.scan inner = some (ref, []) ∧ verb.between after = some ((), text) := by
  rw [read_form]
  constructor
  · rintro ⟨gap', inner', after', layout', closed', scanned, between, same⟩
    have tails := congrArg (List.dropWhile isLayout) (List.append_cancel_left same)
    rw [dropWhile_exact layout.chars (ends_cons rfl),
      dropWhile_exact layout'.chars (ends_cons rfl)] at tails
    have inside {text : List Char} (closed : ']' ∉ text) : ∀ c ∈ text, (c != ']') = true :=
      fun c member => bne_iff_ne.mpr fun same => closed (same ▸ member)
    have insides := congrArg (List.takeWhile (· != ']')) (List.cons.inj tails).2
    rw [takeWhile_exact (inside closed) (ends_cons rfl),
      takeWhile_exact (inside closed') (ends_cons rfl)] at insides
    subst insides
    cases List.append_cancel_left (List.cons.inj tails).2
    exact ⟨scanned, between⟩
  · rintro ⟨scanned, between⟩
    exact ⟨gap, inner, after, layout, closed, scanned, between, rfl⟩

end Verb

/-! ## What such a line means -/

/-- Whether a step updates a slot by the expression of a change, for an anchor. -/
def Makes (anchor : Vec) (slot : Expr.Slot) (change : Update × List Char) (step : Step) : Prop :=
  ∃ value, Expr.compile (.rule anchor) change.2 = .ok value ∧
    step = .update change.1 slot.name slot.offset value

namespace Draft

variable {d d' : Draft} {inRuleset : Bool} {verb : Verb} {line : List Char} {ref : PropertyRef}

/-- A draft with more steps. -/
def addSteps (d : Draft) (steps : List Step) : Draft :=
  { d with rule := { d.rule with steps := d.rule.steps ++ steps } }

/-- A draft with one more update. -/
def update (ref : PropertyRef) (d : Draft) (change : Update × List Char) :
    Except Problem Draft := do
  return d.addStep (.update change.1 ref.name (d.targetOffset ref)
    (← compileExpr (.rule d.rule.anchor) change.2))

theorem foldlM_update {changes : List (Update × List Char)} :
    changes.foldlM (update ref) d = .ok d' ↔ ∃ steps,
      List.Forall₂ (Makes d.rule.anchor (ref.slot (.rule d.rule.anchor))) changes steps ∧
      d' = d.addSteps steps := by
  induction changes generalizing d with
  | nil =>
    have none : d.addSteps [] = d := by rw [addSteps, List.append_nil]
    constructor
    · rintro ⟨⟩
      exact ⟨[], .nil, none.symm⟩
    · rintro ⟨_, ⟨⟩, rfl⟩
      exact congrArg Except.ok none.symm
  | cons change rest ih =>
    rw [List.foldlM_cons, bind_eq_ok]
    constructor
    · rintro ⟨between, first, others⟩
      obtain ⟨value, compiled, made⟩ := bind_eq_ok.mp first
      cases made
      obtain ⟨steps, made, rfl⟩ := ih.mp others
      exact ⟨_ :: steps, .cons ⟨value, compileExpr_eq_ok.mp compiled, rfl⟩ made, by
        simp only [addSteps, addStep, List.append_assoc, List.singleton_append]; rfl⟩
    · rintro ⟨steps, made, rfl⟩
      cases made with
      | cons first made =>
        rename_i step steps
        obtain ⟨value, compiled, rfl⟩ := first
        refine ⟨_, bind_eq_ok.mpr ⟨value, compileExpr_eq_ok.mpr compiled, rfl⟩,
          ih.mpr ⟨steps, made, ?_⟩⟩
        simp only [addSteps, addStep, List.append_assoc, List.singleton_append]
        rfl

/-- A line with one of the words is read in its form and makes its updates one by one. -/
theorem effectLine_of_word (named : keyword line = verb.word) :
    d.effectLine inRuleset line = (verb.form.read line >>= fun parts =>
      match verb.changes parts.2 with
      | some changes => changes.foldlM (update parts.1) d
      | none => throw (.syntaxError Form.clamp.description line)) := by
  have other (flag : String) (word : keyword flag.toList ≠ verb.word) : line ≠ flag.toList :=
    fun same => word (same ▸ named)
  unfold effectLine
  dsimp only
  rw [if_neg (other "non-break" (by cases verb <;> decide)),
    if_neg (other "always-run" (by cases verb <;> decide)), named]
  cases verb with
  | set | increase =>
    refine bind_congr fun parts => ?_
    dsimp only [Verb.changes]
    rw [List.foldlM_cons]
    exact (bind_pure _).symm
  | clamp =>
    refine bind_congr fun parts => ?_
    dsimp only [Verb.changes]
    generalize splitTopLevel parts.2 = pieces
    rcases pieces with _ | ⟨low, _ | ⟨high, _ | ⟨_, _⟩⟩⟩
    case cons.cons.nil =>
      -- The first update leaves the anchor as it is.
      simp only [List.foldlM_cons, List.foldlM_nil, update, bind_assoc, pure_bind]
      rfl
    all_goals rfl

/-- What a line with one of the words does to a draft. -/
theorem effectLine_of_word_eq_ok (named : keyword line = verb.word) :
    d.effectLine inRuleset line = .ok d' ↔ ∃ ref text changes steps,
      verb.form.read line = .ok (ref, text) ∧ verb.changes text = some changes ∧
      List.Forall₂ (Makes d.rule.anchor (ref.slot (.rule d.rule.anchor))) changes steps ∧
      d' = d.addSteps steps := by
  rw [effectLine_of_word named, bind_eq_ok]
  constructor
  · rintro ⟨⟨ref, text⟩, read, h⟩
    dsimp only at h
    split at h
    · rename_i changes made
      obtain ⟨steps, added, rfl⟩ := foldlM_update.mp h
      exact ⟨ref, text, changes, steps, read, made, added, rfl⟩
    · cases h
  · rintro ⟨ref, text, changes, steps, read, made, added, rfl⟩
    refine ⟨(ref, text), read, ?_⟩
    rw [made]
    exact foldlM_update.mpr ⟨steps, added, rfl⟩

end Draft

/-! ## Targets and tokens -/

namespace Verb

/-- What stands behind the property of a line that updates it by constants. -/
def ending : Verb → List Char
  | .set => " = 1".toList
  | .increase => " by 1".toList
  | .clamp => " in 0, 1".toList

/-- The line `set [inner] = 1`, `inc [inner] by 1` or `clamp [inner] in 0, 1`. -/
def line (verb : Verb) (inner : List Char) : List Char :=
  verb.word.toList ++ ([' '] ++ '[' :: (inner ++ ']' :: verb.ending))

/-- The updates that the line makes. -/
def constants : Verb → List (Update × List Char)
  | .set => [(.set, ['1'])]
  | .increase => [(.increase, ['1'])]
  | .clamp => [(.atLeast, ['0']), (.atMost, ['1'])]

variable {verb : Verb} {inner text : List Char} {ref : PropertyRef}

theorem keyword_line (verb : Verb) (inner : List Char) :
    keyword (verb.line inner) = verb.word := by
  cases verb with
  | set => exact @keyword_append "set" 's' ' ' (by decide) rfl (by decide) rfl _
  | increase => exact @keyword_append "inc" 'i' ' ' (by decide) rfl (by decide) rfl _
  | clamp => exact @keyword_append "clamp" 'c' ' ' (by decide) rfl (by decide) rfl _

theorem between_ending (verb : Verb) : ∃ text, verb.between verb.ending = some ((), text) ∧
    verb.changes text = some verb.constants := by
  cases verb with
  | set | increase => exact ⟨['1'], rfl, rfl⟩
  | clamp => exact ⟨"0, 1".toList, rfl, rfl⟩

/-- The constants are expressions, for every anchor. -/
theorem exists_steps (verb : Verb) (anchor : Vec) (slot : Expr.Slot) :
    ∃ steps, List.Forall₂ (Makes anchor slot) verb.constants steps := by
  have constant (text : List Char) (short : trim text = ['0'] ∨ trim text = ['1']) :
      ∃ value, Expr.compile (.rule anchor) text = .ok value := by
    rcases short with same | same <;>
      exact compile_plain (by rw [same]; decide) (by rw [same]; decide)
        (by rw [same]; decide +kernel)
  obtain ⟨zero, compiledZero⟩ := constant ['0'] (.inl rfl)
  obtain ⟨one, compiledOne⟩ := constant ['1'] (.inr rfl)
  cases verb with
  | set | increase => exact ⟨_, .cons ⟨one, compiledOne, rfl⟩ .nil⟩
  | clamp => exact ⟨_, .cons ⟨zero, compiledZero, rfl⟩ (.cons ⟨one, compiledOne, rfl⟩ .nil)⟩

/-- The line is accepted if the scanner reads the whole inside of the bracket. -/
theorem effectLine_line {d d' : Draft} {inRuleset : Bool} (closed : ']' ∉ inner) :
    d.effectLine inRuleset (verb.line inner) = .ok d' ↔ ∃ ref steps,
      PropertyRef.scan inner = some (ref, []) ∧
      List.Forall₂ (Makes d.rule.anchor (ref.slot (.rule d.rule.anchor))) verb.constants steps ∧
      d' = d.addSteps steps := by
  obtain ⟨values, ends, changes⟩ := between_ending verb
  have blank : IsRun isLayout [' '] := ⟨List.cons_ne_nil _ _, List.all_eq_true.mp rfl⟩
  rw [Draft.effectLine_of_word_eq_ok (keyword_line verb inner)]
  constructor
  · rintro ⟨ref, text, changes', steps, read, made, added, rfl⟩
    obtain ⟨scanned, between⟩ := (read_form_append blank closed).mp read
    rw [ends] at between
    cases between
    rw [changes] at made
    cases made
    exact ⟨ref, steps, scanned, added, rfl⟩
  · rintro ⟨ref, steps, scanned, added, rfl⟩
    exact ⟨ref, values, verb.constants, steps,
      (read_form_append blank closed).mpr ⟨scanned, ends⟩, changes, added, rfl⟩

end Verb

/-- A line that updates `[inner]` by constants is accepted if and only if `[inner]` is an
expression of the rule and its inside is snug, and then it updates the slot of that
expression. -/
theorem target_accepted_iff (d : Draft) (inRuleset : Bool) (verb : Verb) {inner : List Char}
    (closed : ']' ∉ inner) (plain : (trim inner).head? ≠ some '$') :
    ((∃ d', d.effectLine inRuleset (verb.line inner) = .ok d') ↔
      (∃ e, Expr.compile (.rule d.rule.anchor) ('[' :: (inner ++ [']'])) = .ok e) ∧ Snug inner) ∧
    ∀ d' e, d.effectLine inRuleset (verb.line inner) = .ok d' →
      Expr.compile (.rule d.rule.anchor) ('[' :: (inner ++ [']'])) = .ok e →
      ∃ slot steps, e.slots = [slot] ∧
        List.Forall₂ (Makes d.rule.anchor slot) verb.constants steps ∧ d' = d.addSteps steps := by
  have token {ref : PropertyRef} (scanned : PropertyRef.scan inner = some (ref, [])) :
      property? inner = some ref :=
    property?_eq_some.mpr ⟨[], scanned, fun _ member => absurd member List.not_mem_nil⟩
  refine ⟨⟨?_, ?_⟩, ?_⟩
  · rintro ⟨d', accepted⟩
    obtain ⟨ref, steps, scanned, -, -⟩ := (Verb.effectLine_line closed).mp accepted
    exact ⟨compile_bracket closed (token scanned),
      (eq_nil_iff_snug scanned fun _ member => absurd member List.not_mem_nil).mp rfl⟩
  · rintro ⟨⟨e, compiled⟩, snug⟩
    rw [Text.head?_trim] at plain
    obtain ⟨ref, found⟩ := property?_of_compile closed plain compiled
    obtain ⟨left, scanned, blank⟩ := property?_eq_some.mp found
    cases (eq_nil_iff_snug scanned blank).mpr snug
    obtain ⟨steps, made⟩ := verb.exists_steps d.rule.anchor (ref.slot (.rule d.rule.anchor))
    exact ⟨_, (Verb.effectLine_line closed).mpr ⟨ref, steps, scanned, made, rfl⟩⟩
  · intro d' e accepted compiled
    obtain ⟨ref, steps, scanned, made, rfl⟩ := (Verb.effectLine_line closed).mp accepted
    exact ⟨_, steps, slots_bracket closed (token scanned) compiled, made, rfl⟩

/-- An open rule of two cells in a row, anchored at the right one. -/
def hearth : Draft := { rule := Rule.blank 2 1 ⟨1, 0⟩, phase := .effect }

theorem hearth_target_accepted :
    (∃ d', hearth.effectLine false (Verb.clamp.line "heat - 0, 0".toList) = .ok d') ∧
    ∀ d' e, hearth.effectLine false (Verb.clamp.line "heat - 0, 0".toList) = .ok d' →
      Expr.compile (.rule ⟨1, 0⟩) "[heat - 0, 0]".toList = .ok e →
      e.slots = [⟨"heat", ⟨-1, 0⟩⟩] ∧ d'.rule.steps.length = 2 := by
  have closed : ']' ∉ "heat - 0, 0".toList := by decide
  obtain ⟨accepted, made⟩ := target_accepted_iff hearth false .clamp closed (by decide)
  have token : property? "heat - 0, 0".toList = some ⟨"heat", some (0, 0)⟩ := by decide +kernel
  refine ⟨accepted.mpr ⟨compile_bracket closed token, by decide⟩, fun d' e line compiled => ?_⟩
  obtain ⟨slot, steps, -, added, rfl⟩ := made d' e line compiled
  exact ⟨slots_bracket closed token compiled, added.length_eq.symm⟩

/-- A blank behind a coordinate is passed in an expression, but not in a target. -/
theorem hearth_target_refused :
    ¬((∃ d', hearth.effectLine false (Verb.set.line "heat - 0, 0 ".toList) = .ok d') ↔
      ∃ e, Expr.compile (.rule hearth.rule.anchor) "[heat - 0, 0 ]".toList = .ok e) := by
  have closed : ']' ∉ "heat - 0, 0 ".toList := by decide
  have token : property? "heat - 0, 0 ".toList = some ⟨"heat", some (0, 0)⟩ := by decide +kernel
  have compiled : ∃ e, Expr.compile (.rule hearth.rule.anchor) "[heat - 0, 0 ]".toList = .ok e :=
    compile_bracket closed token
  intro same
  obtain ⟨d', accepted⟩ := same.mpr compiled
  obtain ⟨ref, steps, scanned, -⟩ := (Verb.effectLine_line closed).mp accepted
  have left : (PropertyRef.scan "heat - 0, 0 ".toList).map (·.2) = some [' '] := by
    decide +kernel
  rw [scanned] at left
  cases left

end FallingSand.Script
