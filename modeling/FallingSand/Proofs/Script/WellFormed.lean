import FallingSand.Proofs.Script.Shape

/-!
# Well-formed rules

Beyond their shape, compiled rules have an effect pattern for the whole box or
none at all, according to whether some step fills the box, and a probability
between zero and one. A draft has the same properties up to the rows that its
open pattern lacks, whichever block it stands in.
-/

namespace FallingSand

namespace Rule

/-- A box in which some coordinate lies has columns and rows. -/
theorem sides_of_anchored {rule : Rule} (anchored : rule.anchor.inBounds rule.size = true) :
    1 ≤ rule.width ∧ 1 ≤ rule.height := by
  have inside := (Vec.inBounds_iff _ _).mp anchored
  have small (n : UInt8) : (Int32.ofNat n.toNat).toInt = n.toNat :=
    Int32.toInt_ofNat_of_lt (by have := n.toNat_lt; omega)
  simp only [size, small] at inside
  simp only [UInt8.le_iff_toNat_le, UInt8.reduceToNat]
  omega

/-- A rule with a box that is not empty and with patterns that fill it. -/
structure WellFormed (rule : Rule) : Prop extends rule.Shaped where
  sides : 1 ≤ rule.width ∧ 1 ≤ rule.height
  filled : rule.hasMap = true → rule.effect.size = rule.area
  unfilled : rule.hasMap = false → rule.effect = #[]
  probable : 0.0 ≤ rule.probability ∧ rule.probability ≤ 1.0

end Rule

namespace Script

theorem probable_of_checkProbability {p q : Float} (h : checkProbability p = .ok q) :
    0.0 ≤ q ∧ q ≤ 1.0 := by
  unfold checkProbability at h
  split at h
  · rename_i bounds
    cases h
    simpa using bounds
  · cases h

theorem certain_probable : (0.0 : Float) ≤ 1.0 ∧ (1.0 : Float) ≤ 1.0 := by decide +kernel

/-- Lines of an effect block, patterns apart, do not fill the box. -/
theorem Written.unmapped {rule : Rule} {added : List Step} (h : Written rule added) :
    added.any Step.isMap = false := by
  cases h <;> rfl

/-- A draft whose rule is well formed, up to the rows that an open pattern lacks. -/
structure Draft.WellFormed (d : Draft) : Prop extends d.Shaped where
  probable : 0.0 ≤ d.rule.probability ∧ d.rule.probability ≤ 1.0
  written : d.phase = .effect → d.patterned = true → d.rule.hasMap = true ∧
    d.rule.effect.size + d.rowsLeft * d.rule.width.toNat = d.rule.area
  unwritten : d.phase ≠ .effect ∨ d.patterned = false →
    d.rule.hasMap = false ∧ d.rule.effect = #[]
  idle : d.phase = .between → d.patterned = false

namespace Draft.WellFormed

variable {d d' : Draft}

theorem row {line : List Char} (rows : 0 < d.rowsLeft) (h : d.patternRow line = .ok d')
    (formed : d.WellFormed) : d'.WellFormed := by
  have shaped := formed.toShaped.row rows h
  have patterned := (formed.inPattern rows).1
  obtain ⟨width, ⟨phase, rfl⟩ | ⟨phase, rfl⟩⟩ := patternRow_ok h
  · obtain ⟨map, size⟩ := formed.written phase patterned
    refine { shaped with
      probable := formed.probable, written := ?_, unwritten := ?_, idle := formed.idle }
    · intro _ _
      exact ⟨map, size_append_row rows (by rw [List.length_map, width]) size⟩
    · intro other
      simp [phase, patterned] at other
  · exact { shaped with
      probable := formed.probable
      written := fun effect => absurd effect phase
      unwritten := formed.unwritten
      idle := formed.idle }

theorem pattern (inside : d.phase ≠ .between) (h : d.beginPattern = .ok d')
    (formed : d.WellFormed) : d'.WellFormed := by
  have shaped := formed.toShaped.pattern inside h
  obtain ⟨unpatterned, ⟨phase, rfl⟩ | ⟨phase, rfl⟩⟩ := beginPattern_ok h
  · refine { shaped with
      probable := formed.probable, written := ?_, unwritten := ?_
      idle := fun between => absurd between inside }
    · intro _ _
      refine ⟨by simp [Rule.hasMap, Step.isMap], ?_⟩
      show 0 + d.rule.height.toNat * d.rule.width.toNat = d.rule.area
      rw [Nat.zero_add, Nat.mul_comm, Rule.area]
    · intro other
      simp [phase] at other
  · exact { shaped with
      probable := formed.probable
      written := fun effect => absurd effect phase
      unwritten := fun _ => formed.unwritten (.inl phase)
      idle := fun between => absurd between inside }

theorem matchLine {line : List Char} (matching : d.phase = .matching)
    (h : d.matchLine line = .ok d') (formed : d.WellFormed) : d'.WellFormed := by
  have shaped := formed.toShaped.matchLine h
  obtain ⟨text, condition, -, rfl⟩ := matchLine_ok h
  exact { shaped with
    probable := formed.probable
    written := fun effect => nomatch matching.symm.trans effect
    unwritten := formed.unwritten
    idle := formed.idle }

theorem effectLine {inRuleset : Bool} {line : List Char}
    (h : d.effectLine inRuleset line = .ok d') (formed : d.WellFormed) : d'.WellFormed := by
  have shaped := formed.toShaped.effectLine h
  obtain ⟨rule, change, rfl⟩ := effectLine_ok h
  cases change with
  | nonBreak | always | shift => exact { shaped with
      probable := formed.probable
      written := formed.written
      unwritten := formed.unwritten
      idle := formed.idle }
  | steps written =>
    rename_i added
    have map : Rule.hasMap { d.rule with steps := d.rule.steps ++ added } = d.rule.hasMap := by
      simp only [Rule.hasMap, List.any_append, written.unmapped, Bool.or_false]
    refine { shaped with
      probable := formed.probable, written := ?_, unwritten := ?_, idle := formed.idle }
    · rw [map]
      exact formed.written
    · rw [map]
      exact formed.unwritten

theorem endMatch (rows : d.rowsLeft = 0) (matching : d.phase = .matching)
    (formed : d.WellFormed) :
    Draft.WellFormed { d with phase := .between, patterned := false } where
  toShaped := formed.toShaped.endMatch rows matching
  probable := formed.probable
  written effect := nomatch effect
  unwritten _ := formed.unwritten (.inl (by rw [matching]; decide))
  idle _ := rfl

theorem beginEffect (rows : d.rowsLeft = 0) (between : d.phase = .between) {p : Float}
    (checked : p = d.rule.probability ∨ checkProbability p = .ok p) (formed : d.WellFormed) :
    Draft.WellFormed { d with
      rule := { d.rule with probability := p }, phase := .effect, patterned := false } where
  toShaped := formed.toShaped.beginEffect rows between p
  probable := by
    rcases checked with rfl | checked
    · exact formed.probable
    · exact probable_of_checkProbability checked
  written _ patterned := nomatch patterned
  unwritten _ := formed.unwritten (.inl (by rw [between]; decide))
  idle between := nomatch between

/-- Symbols that fill a box but for some rows fill the other rows. -/
theorem rows_of_count {count left width height : Nat} (wide : 1 ≤ width)
    (size : count + left * width = width * height) :
    left ≤ height ∧ count = (height - left) * width := by
  have few : left ≤ height := by
    refine Nat.le_of_mul_le_mul_right ?_ wide
    rw [Nat.mul_comm height]
    omega
  obtain ⟨rest, rfl⟩ := Nat.exists_eq_add_of_le few
  rw [Nat.mul_add, Nat.mul_comm width left, Nat.mul_comm width rest] at size
  refine ⟨few, ?_⟩
  rw [Nat.add_sub_cancel_left]
  omega

theorem wide (formed : d.WellFormed) : 1 ≤ d.rule.width.toNat := by
  simpa [UInt8.le_iff_toNat_le] using (Rule.sides_of_anchored formed.anchored).1

/-- An open match pattern holds the rows that it does not lack. -/
theorem matched (formed : d.WellFormed) (matching : d.phase = .matching)
    (patterned : d.patterned = true) : d.rowsLeft ≤ d.rule.height.toNat ∧
    ∃ symbols, d.rule.pattern = some symbols ∧
      symbols.size = (d.rule.height.toNat - d.rowsLeft) * d.rule.width.toNat := by
  obtain ⟨symbols, pattern, size⟩ := formed.rows matching patterned
  obtain ⟨few, count⟩ := rows_of_count formed.wide size
  exact ⟨few, symbols, pattern, count⟩

/-- An open effect pattern holds the rows that it does not lack. -/
theorem effected (formed : d.WellFormed) (effect : d.phase = .effect)
    (patterned : d.patterned = true) : d.rowsLeft ≤ d.rule.height.toNat ∧
    d.rule.effect.size = (d.rule.height.toNat - d.rowsLeft) * d.rule.width.toNat :=
  rows_of_count formed.wide (formed.written effect patterned).2

/-- A pattern does not lack more rows than the box has. -/
theorem rowsLeft_le (formed : d.WellFormed) : d.rowsLeft ≤ d.rule.height.toNat := by
  by_cases rows : 0 < d.rowsLeft
  · obtain ⟨patterned, inside⟩ := formed.inPattern rows
    cases phase : d.phase with
    | between => exact absurd phase inside
    | matching => exact (formed.matched phase patterned).1
    | effect => exact (formed.effected phase patterned).1
  · omega

/-- At the end of its effect block a rule is well formed. -/
theorem endEffect (rows : d.rowsLeft = 0) (effect : d.phase = .effect)
    (formed : d.WellFormed) : d.rule.WellFormed := by
  have shaped : d.rule.Shaped := ⟨formed.anchored, formed.full (by rw [effect]; decide)⟩
  refine { shaped with
    sides := Rule.sides_of_anchored shaped.anchored, filled := ?_, unfilled := ?_
    probable := formed.probable }
  · intro map
    cases patterned : d.patterned with
    | true => simpa [rows] using (formed.written effect patterned).2
    | false =>
      have none := (formed.unwritten (.inr patterned)).1
      rw [map] at none
      cases none
  · intro noMap
    refine (formed.unwritten (.inr ?_)).2
    by_contra patterned
    have map := (formed.written effect (by simpa using patterned)).1
    rw [noMap] at map
    cases map

end Draft.WellFormed

namespace Builder

theorem inheritedCopy_wellFormed {rule : Rule} {probability : Option Float}
    (checked : ∀ p, probability = some p → checkProbability p = .ok p)
    (formed : rule.WellFormed) : (inheritedCopy probability rule).WellFormed := by
  refine ⟨⟨formed.anchored, formed.pattern⟩, formed.sides, formed.filled, formed.unfilled, ?_⟩
  cases probability with
  | none => exact formed.probable
  | some p => exact probable_of_checkProbability (checked p rfl)

theorem rematched_wellFormed {previous : Rule} (formed : previous.WellFormed) :
    Draft.WellFormed { rule := rematched previous } where
  toShaped := shapedClosure.repeatMatch formed.toShaped
  probable := certain_probable
  written effect := nomatch effect
  unwritten _ := ⟨rfl, rfl⟩
  idle _ := rfl

/-- The box is that of the draft and the effect that of the previous rule, so the effect
is counted again. -/
theorem reeffected_wellFormed {d : Draft} {previous : Rule} (rows : d.rowsLeft = 0)
    (between : d.phase = .between)
    (complete : (reeffected d.rule previous).hasMap = true → previous.effect.size = d.rule.area)
    (drafted : d.WellFormed) (formed : previous.WellFormed) :
    (reeffected d.rule previous).WellFormed := by
  have shaped : (reeffected d.rule previous).Shaped :=
    shapedClosure.repeatEffect rows between complete drafted.toShaped formed.toShaped
  exact { shaped with
    sides := Rule.sides_of_anchored shaped.anchored, filled := complete
    unfilled := formed.unfilled, probable := formed.probable }

end Builder

/-- Lines keep rules and drafts well formed. -/
theorem wellFormedClosure : Closure AtomType.Shaped Rule.WellFormed Draft.WellFormed where
  newAtom := shapedClosure.newAtom
  change := shapedClosure.change
  addRules := shapedClosure.addRules
  number id formed := { shapedClosure.number id formed.toShaped with
    sides := formed.sides, filled := formed.filled, unfilled := formed.unfilled,
    probable := formed.probable }
  copy checked formed := Builder.inheritedCopy_wellFormed checked formed
  beginMatch symmetry hx hy := { shapedClosure.beginMatch symmetry hx hy with
    probable := certain_probable, written := fun h => (nomatch h),
    unwritten := fun _ => ⟨rfl, rfl⟩, idle := fun h => (nomatch h) }
  row rows h formed := formed.row rows h
  pattern _ inside h formed := formed.pattern inside h
  matchLine _ matching h formed := formed.matchLine matching h
  effectLine _ _ h formed := formed.effectLine h
  endMatch rows matching formed := formed.endMatch rows matching
  beginEffect rows between checked formed := formed.beginEffect rows between checked
  endEffect rows effect _ formed := formed.endEffect rows effect
  repeatMatch formed := Builder.rematched_wellFormed formed
  repeatEffect rows between complete drafted formed :=
    Builder.reeffected_wellFormed rows between complete drafted formed

end Script

end FallingSand
