import FallingSand.Proofs.Script.Following

/-!
# Registers that fit together

The registers of a compiler are loosely coupled, and many lines touch only some of
them: `repeat` and `inherit` finish rules outside the effect block, statements for the
whole script may stand between the blocks of a rule, and what was written of the last
rule outlives the block that it stood in. Yet they always fit together
(`Registers.Coherent`), so no line finds a register empty that it needs
(`registers_coherent`).
-/

namespace FallingSand.Script

namespace Builder

variable {b b' : Builder}

/-- Every line keeps rules where they may stand. -/
theorem admits_next {index : Nat} {line : List Char} (h : b.Next index line b')
    (admits : ∀ d, b.draft = some d → b.AdmitsRules) :
    ∀ d, b'.draft = some d → b'.AdmitsRules := by
  intro d found
  cases h with
  | row draft | pattern draft | matchLine draft | effectLine draft | endMatch draft
    | beginEffect draft => exact admits _ draft
  | beginMatch rules | repeatMatch rules => exact rules
  | endEffect draft rows phase finished | repeatEffect draft rows phase before form finished =>
    obtain ⟨-, rfl⟩ := finish_ok finished
    cases found
  | inherit none =>
    rw [kept_inherit.1, none] at found
    cases found
  | inheritNothing | global | preload | default => exact admits d found
  | change scope =>
    have before := admits d found
    rw [AdmitsRules, inRuleset, part?, scope] at before
    exact before
  | openPart part scope =>
    have before := admits d found
    simp [AdmitsRules, inRuleset, part?, scope] at before
  | openAtom scope | openRuleset name scope =>
    have before := admits d found
    simp [AdmitsRules, inRuleset, part?, scope] at before
  | closePart none | closeAtom none | closeRuleset none =>
    cases none.symm.trans found

theorem tidy_of_lines {texts : List (List Char)} (h : Builder.lines {} 0 texts = .ok b) :
    b.Tidy where
  admits := invariant_of_lines (I := fun b => ∀ d, b.draft = some d → b.AdmitsRules)
    admits_next (fun _ found => by cases found) h
  formed _ draft := wellFormedClosure.draft_of_lines h draft

end Builder

/-- Registers that fit together. -/
structure Registers.Coherent (r : Registers) : Prop where
  /-- In a block of a rule there is a rule. -/
  block : r.phase ≠ .between → r.draft.isSome
  /-- Rows are lacking in a block alone, -/
  rows : 0 < r.rowsLeft → r.phase ≠ .between
  /-- no more than the box has, -/
  few : ∀ rule, r.draft = some rule → r.rowsLeft ≤ rule.height.toNat
  /-- and the other rows are there: of a match pattern -/
  matched : ∀ rule, r.draft = some rule → 0 < r.rowsLeft → r.phase = .matching →
    ∃ symbols, rule.pattern = some symbols ∧
      symbols.size = (rule.height.toNat - r.rowsLeft) * rule.width.toNat
  /-- and of an effect pattern. -/
  effected : ∀ rule, r.draft = some rule → 0 < r.rowsLeft → r.phase = .effect →
    rule.effect.size = (rule.height.toNat - r.rowsLeft) * rule.width.toNat
  /-- A section stands in an atom, -/
  part : r.part.isSome → r.current.isSome
  /-- which is one of the atoms, -/
  current : ∀ place, r.current = some place → place < r.atoms.size
  /-- and no atom is open together with a rule set. -/
  apart : r.current = none ∨ r.ruleset = none
  /-- A rule is open where rules may stand. -/
  draft : r.draft.isSome → r.ruleset.isSome ∨ r.part = some .update
  /-- The list of the last rule has rules in it. -/
  bucket : r.current.isSome ∨ r.ruleset.isSome → ∀ which, r.bucket = some which →
    ∃ rules, r.bucketRules? which = some rules ∧ rules ≠ #[]

namespace Builder

variable {b : Builder} {bucket : Option Bucket}

theorem registers_draft_eq {rule : Rule} (h : (b.registers bucket).draft = some rule) :
    ∃ d, b.draft = some d ∧ d.rule = rule ∧ (b.registers bucket).phase = d.phase ∧
      (b.registers bucket).rowsLeft = d.rowsLeft := by
  cases draft : b.draft with
  | none => simp [registers, draft] at h
  | some d =>
    obtain ⟨same, phase, rows, -⟩ := registers_of_draft bucket draft
    rw [same] at h
    exact ⟨d, rfl, Option.some.inj h, phase, rows⟩

/-- The registers of a builder fit together after any lines. -/
theorem registers_fit (tidy : b.Tidy) (remembers : b.Remembers bucket) :
    (b.registers bucket).Coherent where
  block := by cases draft : b.draft <;> simp [registers, draft]
  rows := by
    cases draft : b.draft with
    | none => simp [registers, draft]
    | some d =>
      intro rows
      simp only [registers, draft] at rows ⊢
      exact ((tidy.formed d draft).inPattern rows).2
  few rule opened := by
    obtain ⟨d, draft, rfl, -, rows⟩ := registers_draft_eq opened
    rw [rows]
    exact (tidy.formed d draft).rowsLeft_le
  matched rule opened left matching := by
    obtain ⟨d, draft, rfl, phase, rows⟩ := registers_draft_eq opened
    rw [rows] at left ⊢
    have formed := tidy.formed d draft
    exact (formed.matched (phase.symm.trans matching) (formed.inPattern left).1).2
  effected rule opened left effect := by
    obtain ⟨d, draft, rfl, phase, rows⟩ := registers_draft_eq opened
    rw [rows] at left ⊢
    have formed := tidy.formed d draft
    exact (formed.effected (phase.symm.trans effect) (formed.inPattern left).1).2
  part := by cases scope : b.scope <;> simp [registers, part?, scope]
  current := by
    intro place
    cases scope : b.scope with
    | file | ruleset => simp [registers, scope]
    | atom atom part =>
      simp only [registers, scope, Array.size_push, Option.some.injEq]
      rintro rfl
      exact Nat.lt_succ_self _
  apart := by cases scope : b.scope <;> simp [registers, scope]
  draft := by
    intro opened
    obtain ⟨rule, found⟩ := Option.isSome_iff_exists.mp opened
    obtain ⟨d, draft, -⟩ := registers_draft_eq found
    rw [registers_ruleset]
    exact tidy.admits d draft
  bucket := by
    intro opened which found
    have inside : b.scope ≠ .file := by
      intro file
      simp [registers, file] at opened
    obtain rfl : bucket = some which := found
    -- the list was remembered with its last rule
    obtain ⟨last, alike⟩ := remembers inside
    obtain ⟨previous, before⟩ := Option.isSome_iff_exists.mp alike.symm
    rw [before] at last
    obtain ⟨rules, listed, last⟩ := Option.bind_eq_some_iff.mp last
    refine ⟨rules, (registers_bucketRules? which).trans listed, ?_⟩
    rintro rfl
    simp at last

end Builder

/-! ## Runs -/

namespace Follows

variable {b b' : Builder} {r : Registers}

theorem start : Follows {} {} := ⟨rfl, fun inside => absurd rfl inside⟩

theorem coherent (follows : Follows b r) (tidy : b.Tidy) : r.Coherent := by
  rw [follows.flat]
  exact b.registers_fit tidy follows.remembers

theorem line (follows : Follows b r) (tidy : b.Tidy) (index : Nat) (text : List Char) :
    Answers (b.line index text) (r.line index text) := by
  have answers := Answers.anyLine tidy follows.remembers index text
  rw [← follows.flat] at answers
  exact answers

/-- Behind lines that have been read, the registers follow through any further lines. -/
theorem lines {before after : List (List Char)} (follows : Follows b r)
    (run : Builder.lines {} 0 before = .ok b) (h : b.lines before.length after = .ok b') :
    ∃ r', r.lines before.length after = .ok r' ∧ Follows b' r' := by
  induction after generalizing before b r with
  | nil =>
    cases h
    exact ⟨r, rfl, follows⟩
  | cons text rest ih =>
    have answers := follows.line (Builder.tidy_of_lines run) before.length text
    unfold Builder.lines at h
    unfold Registers.lines
    split at h
    · rename_i next accepted
      rw [accepted] at answers
      generalize r.line before.length text = answer at answers
      cases answers with
      | ok follows' =>
        have longer : Builder.lines {} 0 (before ++ [text]) = .ok next := by
          refine Builder.lines_append_ok.mpr ⟨b, run, ?_⟩
          rw [Builder.lines_singleton_ok, Nat.zero_add]
          exact accepted
        have more := ih follows' longer
        rw [List.length_append, List.length_singleton] at more
        exact more h
    · cases h

end Follows

/-- A line that is answered alike finds all that it needs. -/
theorem Answers.no_lack {m : Except Problem Builder} {n : Except Stop Registers}
    (h : Answers m n) (lack : Lack) : n ≠ .error (.lack lack) := by
  rintro rfl
  cases h

/-- Whatever lines have been read, there are registers that say what the builder says. They
fit together, and the next line, whatever it is, finds in them all that it needs and has
the same answer from both. -/
theorem registers_coherent {before : List (List Char)} {b : Builder}
    (h : Builder.lines {} 0 before = .ok b) (line : List Char) :
    ∃ r, Registers.lines {} 0 before = .ok r ∧ Follows b r ∧ r.Coherent ∧
      (∀ lack, r.line before.length line ≠ .error (.lack lack)) ∧
      Answers (b.line before.length line) (r.line before.length line) := by
  have empty : Builder.lines {} 0 [] = .ok {} := rfl
  obtain ⟨r, run, follows⟩ := Follows.start.lines empty h
  have tidy := Builder.tidy_of_lines h
  have answers := follows.line tidy before.length line
  exact ⟨r, run, follows, follows.coherent tidy, answers.no_lack, answers⟩

/-- Lines that stop in a pattern of which a row is missing. -/
def halfPattern : List (List Char) :=
  ["atom Sand \x7b", "section update \x7b", "match (0, 0, 1, 2) \x7b", "pattern", "x"].map
    String.toList

theorem halfPattern_accepted : (Builder.lines {} 0 halfPattern).toOption.isSome = true := by
  decide +kernel

theorem halfPattern_coherent : ∃ b r, Builder.lines {} 0 halfPattern = .ok b ∧
    Registers.lines {} 0 halfPattern = .ok r ∧ Follows b r ∧ r.Coherent ∧
      (∀ lack, r.line halfPattern.length "_".toList ≠ .error (.lack lack)) ∧
      Answers (b.line halfPattern.length "_".toList) (r.line halfPattern.length "_".toList) := by
  obtain ⟨b, accepted⟩ := Option.isSome_iff_exists.mp halfPattern_accepted
  obtain ⟨r, facts⟩ := registers_coherent (eq_ok_of_toOption accepted) "_".toList
  exact ⟨b, r, eq_ok_of_toOption accepted, facts⟩

end FallingSand.Script
