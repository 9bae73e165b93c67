import FallingSand.Proofs.Script.Blocks
import FallingSand.Proofs.Script.Shape
import FallingSand.Proofs.Script.Targets
import FallingSand.Proofs.Script.TopLevel
import FallingSand.Proofs.World.Reach

/-!
# Coordinates of a box

Every bracket of a line of a rule is recorded: as a slot of a condition or of the value of a
step, or as the target of a step (`RuleLine.mem_places`). What is recorded is the difference
of the coordinate and the anchor in 32 bits with a sign. Numerals that do not fit 32 bits
without a sign are refused, so between the two limits lie coordinates that are recorded
wrongly (`coordinates_recorded`).
-/

namespace FallingSand

open FallingSand.Expr (Slot brackets property? Writes)

/-! ## The places of a rule -/

/-- The places that a step reads and writes. -/
def Step.places : Step → List Slot
  | .update _ name target value => ⟨name, target⟩ :: value.slots
  | _ => []

/-- The places that the conditions and the updates of a rule read and write. -/
def Rule.places (rule : Rule) : List Slot :=
  rule.conditions.flatMap (·.slots) ++ rule.steps.flatMap Step.places

theorem Step.chebyshev_le_reach {step : Step} {slot : Slot} (h : slot ∈ step.places) :
    slot.offset.chebyshev.toNat ≤ step.reach.toNat := by
  cases step with
  | bind | map => cases h
  | update kind name target value =>
    rw [reach, UInt32.toNat_max]
    cases h with
    | head => exact Nat.le_max_left _ _
    | tail _ h => exact (Expr.chebyshev_le_reach h).trans (Nat.le_max_right _ _)

/-- No place of a rule is farther from the anchor than it reaches. -/
theorem Rule.chebyshev_le_reach {rule : Rule} {slot : Slot} (h : slot ∈ rule.places) :
    slot.offset.chebyshev.toNat ≤ rule.reach.toNat := by
  rcases List.mem_append.mp h with h | h
  · obtain ⟨condition, member, h⟩ := List.mem_flatMap.mp h
    exact (Expr.chebyshev_le_reach h).trans (condition_le_reach member)
  · obtain ⟨step, member, h⟩ := List.mem_flatMap.mp h
    exact (Step.chebyshev_le_reach h).trans (step_le_reach member)

namespace Expr

/-- What a bracket of a rule is recorded as, if it is a property. -/
def record (anchor : Vec) (inner : List Char) : Option Slot :=
  (property? inner).map (·.slot (.rule anchor))

/-- The slots of an expression of a rule are its brackets as they are recorded. -/
theorem slots_of_compile_rule {anchor : Vec} {text : List Char} {e : Expr}
    (h : compile (.rule anchor) text = .ok e) :
    e.slots = (brackets text).filterMap (record anchor) := by
  rw [slots_of_compile h, propertyTokens, List.map_filterMap]
  rfl

end Expr

namespace Script

open Text (Scanner trim)
open Text.Scanner

/-! ## Brackets of a line -/

section Brackets

theorem notMem_of_isLayout {gap : List Char} (layout : ∀ c ∈ gap, isLayout c = true) :
    '[' ∉ gap := fun member => nomatch layout '[' member

/-- No bracket opens between the property of an update and its expressions. -/
theorem Verb.exists_between {verb : Verb} {after text : List Char}
    (h : verb.between after = some ((), text)) : ∃ front, '[' ∉ front ∧ after = front ++ text := by
  have words {preposition : String} (plain : '[' ∉ preposition.toList)
      (h : (layout1 >>= fun _ => leading preposition) after = some ((), text)) :
      ∃ front, '[' ∉ front ∧ after = front ++ text := by
    obtain ⟨⟨⟨⟩, left⟩, separated, word⟩ := Option.bind_eq_some_iff.mp h
    obtain ⟨gap, layout, -, rfl⟩ := layout1_eq_some.mp separated
    obtain ⟨gap', layout', -, same⟩ := leading_eq_some.mp word
    refine ⟨gap ++ (preposition.toList ++ gap'), ?_, by rw [same]; simp⟩
    simp only [List.mem_append, not_or]
    exact ⟨notMem_of_isLayout layout.chars, plain, notMem_of_isLayout layout'.chars⟩
  cases verb with
  | set =>
    obtain ⟨gap, gap', layout, layout', rfl, -⟩ := mark_eq_some h
    refine ⟨gap ++ '=' :: gap', ?_, by simp⟩
    simp only [List.mem_append, List.mem_cons, not_or]
    exact ⟨notMem_of_isLayout layout, by decide, notMem_of_isLayout layout'⟩
  | increase => exact words (by decide) h
  | clamp => exact words (by decide) h

/-- The brackets of a line are its target and those of its expressions. -/
theorem Verb.brackets_changes {verb : Verb} {text : List Char}
    {changes : List (Update × List Char)} (made : verb.changes text = some changes)
    (closed : ∀ change ∈ changes, Expr.Piece.unclosed ∉ Expr.pieces change.2) :
    brackets text = changes.flatMap (brackets ·.2) := by
  cases verb with
  | set | increase =>
    cases made
    simp
  | clamp =>
    unfold Verb.changes at made
    dsimp only at made
    split at made
    · rename_i low high parts
      cases made
      obtain ⟨a, rest, cut, rfl, second⟩ := List.map_eq_cons_iff.mp parts
      obtain ⟨b, none, rfl, rfl, last⟩ := List.map_eq_cons_iff.mp second
      cases List.map_eq_nil_iff.mp last
      have whole : text = a ++ ([','] ++ b) := by
        have joined := intercalate_cutTopLevel 0 [] text
        rw [cut, List.intercalate_cons_cons, List.intercalate_singleton] at joined
        exact joined.symm.trans (List.append_assoc a [','] b)
      have closedLow : Expr.Piece.unclosed ∉ Expr.pieces a :=
        fun left => closed _ List.mem_cons_self (Expr.unclosed_mem_pieces_trim.mpr left)
      rw [whole, Expr.brackets_append closedLow, Expr.brackets_append_left (by decide)]
      simp [Expr.brackets_trim]
    · cases made

theorem Verb.changes_ne_nil {verb : Verb} {text : List Char}
    {changes : List (Update × List Char)} (made : verb.changes text = some changes) :
    changes ≠ [] := by
  cases verb with
  | set | increase =>
    cases made
    exact List.cons_ne_nil _ _
  | clamp =>
    unfold Verb.changes at made
    dsimp only at made
    split at made
    · cases made
      exact List.cons_ne_nil _ _
    · cases made

end Brackets

/-! ## Lines of a rule -/

/-- What a line has to be so that something is recorded of it: a condition or an update that
is accepted in a block of a rule, outside of patterns. -/
structure RuleLine (texts : List (List Char)) (b : Builder) (d : Draft) (line : List Char)
    (b' : Builder) : Prop where
  run : Builder.lines {} 0 texts = .ok b
  draft : b.draft = some d
  inBlock : d.phase ≠ .between
  complete : d.rowsLeft = 0
  word : keyword line ∈ ["eval", "set", "inc", "clamp"]
  accepted : b.line texts.length line = .ok b'

/-- What a line records: in each of its brackets stands a token, and the places that are new
are those of its property tokens. -/
structure Records (anchor : Vec) (line : List Char) (before after : List Slot) : Prop where
  tokens : ∀ inner ∈ brackets line, ∃ token, Expr.Token.read inner = .ok token
  places : ∀ slot, slot ∈ after ↔
    slot ∈ before ∨ slot ∈ (brackets line).filterMap (Expr.record anchor)

section Lines

variable {anchor : Vec} {d d' : Draft} {inRuleset : Bool} {line : List Char} {slot : Slot}

section Makes

variable {target : Slot} {changes : List (Update × List Char)} {steps : List Step}
  (made : List.Forall₂ (Makes anchor target) changes steps)

include made

/-- The expressions of updates compile. -/
theorem compiles_of_makes :
    ∀ change ∈ changes, ∃ e, Expr.compile (.rule anchor) change.2 = .ok e := by
  induction made with
  | nil => exact fun _ member => absurd member List.not_mem_nil
  | cons first rest ih =>
    obtain ⟨value, compiled, -⟩ := first
    exact List.forall_mem_cons.mpr ⟨⟨value, compiled⟩, ih⟩

/-- The places of updates are the target and the brackets of the expressions. -/
theorem mem_places_of_makes : slot ∈ steps.flatMap Step.places ↔
    (slot = target ∧ changes ≠ []) ∨
      slot ∈ (changes.flatMap (brackets ·.2)).filterMap (Expr.record anchor) := by
  induction made with
  | nil => simp
  | cons first rest ih =>
    obtain ⟨value, compiled, rfl⟩ := first
    rw [List.flatMap_cons, List.mem_append, ih, List.flatMap_cons, List.filterMap_append,
      List.mem_append, ← Expr.slots_of_compile_rule compiled, Step.places, List.mem_cons]
    simp only [ne_eq, List.cons_ne_nil, not_false_eq_true, and_true]
    tauto

end Makes

/-- A condition records its brackets. -/
theorem records_matchLine (h : d.matchLine line = .ok d') :
    Records d.rule.anchor line d.rule.places d'.rule.places := by
  unfold Draft.matchLine at h
  split at h
  · obtain ⟨text, read, h⟩ := bind_eq_ok.mp h
    obtain ⟨condition, compiled, h⟩ := bind_eq_ok.mp h
    rw [compileExpr_eq_ok] at compiled
    cases h
    have same : brackets line = brackets text := by
      unfold Form.read at read
      split at read
      · cases read
      rename_i scanned
      obtain ⟨⟨⟨⟩, after⟩, word, others⟩ := Option.bind_eq_some_iff.mp scanned
      cases others
      cases read
      obtain ⟨gap, layout, -, rfl⟩ := leading_eq_some.mp word
      rw [Expr.brackets_append_left (by decide),
        Expr.brackets_append_left (notMem_of_isLayout layout.chars)]
    refine ⟨fun inner member => Expr.token_of_compile compiled (same ▸ member), fun slot => ?_⟩
    rw [same, ← Expr.slots_of_compile_rule compiled]
    simp only [Rule.places, List.flatMap_append, List.flatMap_cons, List.flatMap_nil,
      List.append_nil, List.mem_append]
    tauto
  · cases h

/-- No condition stands in an effect block. -/
theorem Draft.effectLine_ne_ok (word : keyword line = "eval") :
    d.effectLine inRuleset line ≠ .ok d' := by
  have other (flag : String) (word' : keyword flag.toList ≠ "eval") : line ≠ flag.toList :=
    fun same => word' (same ▸ word)
  unfold effectLine
  dsimp only
  rw [if_neg (other "non-break" (by decide)), if_neg (other "always-run" (by decide)), word]
  exact nofun

/-- An update records its target and its brackets. -/
theorem records_effectLine {verb : Verb} (named : keyword line = verb.word)
    (h : d.effectLine inRuleset line = .ok d') :
    Records d.rule.anchor line d.rule.places d'.rule.places := by
  obtain ⟨ref, text, changes, steps, read, made, added, rfl⟩ :=
    (Draft.effectLine_of_word_eq_ok named).mp h
  obtain ⟨gap, inner, after, layout, closed, scanned, between, rfl⟩ := Verb.read_form.mp read
  obtain ⟨front, plain, rfl⟩ := Verb.exists_between between
  have compiles := compiles_of_makes added
  have complete : ∀ change ∈ changes, Expr.Piece.unclosed ∉ Expr.pieces change.2 :=
    fun change member => have ⟨_, compiled⟩ := compiles change member
      Expr.closed_of_compile compiled
  have found : property? inner = some ref :=
    Expr.property?_eq_some.mpr ⟨[], scanned, fun _ member => absurd member List.not_mem_nil⟩
  have recorded : Expr.record d.rule.anchor inner = some (ref.slot (.rule d.rule.anchor)) := by
    rw [Expr.record, found]
    rfl
  have same : brackets (verb.word.toList ++ (gap ++ '[' :: (inner ++ ']' :: (front ++ text)))) =
      inner :: changes.flatMap (brackets ·.2) := by
    rw [Expr.brackets_append_left (by cases verb <;> decide),
      Expr.brackets_append_left (notMem_of_isLayout layout.chars), Expr.brackets_bracket closed,
      Expr.brackets_append_left plain, Verb.brackets_changes made complete]
  constructor
  · rw [same]
    refine List.forall_mem_cons.mpr ⟨⟨_, Expr.token_of_property? found⟩, fun inner' member => ?_⟩
    obtain ⟨change, known, member⟩ := List.mem_flatMap.mp member
    obtain ⟨e, compiled⟩ := compiles change known
    exact Expr.token_of_compile compiled member
  · intro slot
    have new : slot ∈ steps.flatMap Step.places ↔ _ := mem_places_of_makes added
    rw [and_iff_left (Verb.changes_ne_nil made)] at new
    rw [same, List.filterMap_cons_some recorded, List.mem_cons, ← new]
    simp only [Draft.addSteps, Rule.places, List.flatMap_append, List.mem_append]
    tauto

end Lines

namespace RuleLine

variable {texts : List (List Char)} {b b' : Builder} {d : Draft} {line : List Char}

/-- What a line records: its brackets, and nothing else. -/
theorem records (h : RuleLine texts b d line b') : ∃ d', b'.draft = some d' ∧
    Records d.rule.anchor line d.rule.places d'.rule.places := by
  have other (text : List Char) (word : keyword text ∉ ["eval", "set", "inc", "clamp"]) :
      line ≠ text := fun same => word (same ▸ h.word)
  obtain ⟨d', read, _, rfl⟩ := (Builder.line_inside h.draft h.inBlock (other closing (by decide))
    texts.length).exists_left h.accepted
  refine ⟨d', rfl, ?_⟩
  unfold Draft.blockLine at read
  rw [if_neg (by rw [h.complete]; decide), if_neg (other "pattern".toList (by decide))] at read
  split at read
  · exact records_matchLine read
  · have named : ∃ verb : Verb, keyword line = verb.word := by
      have word := h.word
      simp only [List.mem_cons, List.not_mem_nil, or_false] at word
      rcases word with word | word | word | word
      · exact absurd read (Draft.effectLine_ne_ok word)
      · exact ⟨.set, word⟩
      · exact ⟨.increase, word⟩
      · exact ⟨.clamp, word⟩
    obtain ⟨verb, named⟩ := named
    exact records_effectLine named read

/-- The anchor lies in the box. -/
theorem anchor_small (h : RuleLine texts b d line b') :
    (0 ≤ d.rule.anchor.x.toInt ∧ d.rule.anchor.x.toInt < 256) ∧
      0 ≤ d.rule.anchor.y.toInt ∧ d.rule.anchor.y.toInt < 256 := by
  have anchored := (shapedClosure.draft_of_lines h.run h.draft).anchored
  rw [Vec.inBounds_iff] at anchored
  have small (n : UInt8) : (Int32.ofNat n.toNat).toInt < 256 := by
    rw [Int32.toInt_ofNat_of_lt (by have := n.toNat_lt; omega)]
    have := n.toNat_lt
    omega
  have width := small d.rule.width
  have height := small d.rule.height
  unfold Rule.size at anchored
  dsimp only at anchored
  omega

end RuleLine

/-! ## Coordinates -/

/-- The difference of a numeral and an anchor is exact if it fits 32 bits with a sign. -/
theorem toInt_offset_eq_iff {n : Nat} {o : Int32} (fits : n < 4294967296) (low : 0 ≤ o.toInt)
    (high : o.toInt < 256) :
    ((UInt32.ofNat n).toInt32 - o).toInt = n - o.toInt ↔ n - o.toInt < 2147483648 := by
  obtain ⟨k, whole⟩ := toInt_ofNat_wraps n
  obtain ⟨l, difference⟩ := toInt_sub_wraps (UInt32.ofNat n).toInt32 o
  rw [UInt32.toInt32_ofNat'] at difference ⊢
  have below := (Int32.ofNat n - o).toInt_lt
  have above := (Int32.ofNat n - o).le_toInt
  omega

/-- Whether a slot lies exactly where a coordinate of the box does from an anchor. -/
structure IsAt (anchor : Vec) (x y : Nat) (slot : Slot) : Prop where
  x_eq : slot.offset.x.toInt = x - anchor.x.toInt
  y_eq : slot.offset.y.toInt = y - anchor.y.toInt

instance {anchor : Vec} {x y : Nat} {slot : Slot} : Decidable (IsAt anchor x y slot) :=
  decidable_of_iff (_ ∧ _) ⟨fun h => ⟨h.1, h.2⟩, fun h => ⟨h.x_eq, h.y_eq⟩⟩

/-- A rule reaches as far as the coordinates that it has recorded exactly. -/
theorem IsAt.natAbs_le_reach {anchor : Vec} {x y : Nat} {slot : Slot} (h : IsAt anchor x y slot)
    (low : anchor.x.toInt < 256 ∧ anchor.y.toInt < 256) {rule : Rule}
    (member : slot ∈ rule.places) :
    max (x - anchor.x.toInt).natAbs (y - anchor.y.toInt).natAbs ≤ rule.reach.toNat := by
  obtain ⟨alongX, alongY⟩ := Vec.natAbs_le_chebyshev (d := slot.offset)
    (by rw [h.x_eq]; omega) (by rw [h.y_eq]; omega)
  rw [h.x_eq] at alongX
  rw [h.y_eq] at alongY
  exact (max_le alongX alongY).trans (Rule.chebyshev_le_reach member)

/-- A line that is accepted records each coordinate of its brackets. No numeral exceeds 32
bits, and the place is exact if and only if the differences to the anchor fit 32 bits with a
sign; then every rule with that place reaches it. -/
theorem coordinates_recorded {texts : List (List Char)} {b b' : Builder} {d : Draft}
    {line : List Char} (h : RuleLine texts b d line b') :
    ∃ d', b'.draft = some d' ∧ Records d.rule.anchor line d.rule.places d'.rule.places ∧
      ∀ inner ∈ brackets line, ∀ name x y, Writes inner name x y →
        x < 4294967296 ∧ y < 4294967296 ∧
        ∃ slot ∈ d'.rule.places, Expr.record d.rule.anchor inner = some slot ∧ slot.name = name ∧
          (IsAt d.rule.anchor x y slot ↔
            x - d.rule.anchor.x.toInt < 2147483648 ∧ y - d.rule.anchor.y.toInt < 2147483648) ∧
          (IsAt d.rule.anchor x y slot → ∀ rule : Rule, slot ∈ rule.places →
            max (x - d.rule.anchor.x.toInt).natAbs (y - d.rule.anchor.y.toInt).natAbs ≤
              rule.reach.toNat) := by
  obtain ⟨d', draft, records⟩ := h.records
  refine ⟨d', draft, records, fun inner member name x y writes => ?_⟩
  obtain ⟨⟨lowX, highX⟩, lowY, highY⟩ := h.anchor_small
  obtain ⟨token, read⟩ := records.tokens inner member
  obtain ⟨fitsX, fitsY⟩ := Expr.fits_of_writes writes read
  have recorded : Expr.record d.rule.anchor inner = some ⟨name,
      Expr.coordinateVec (UInt32.ofNat x, UInt32.ofNat y) - d.rule.anchor⟩ := by
    rw [Expr.record, Expr.property?_of_writes writes, if_pos ⟨fitsX, fitsY⟩]
    rfl
  refine ⟨fitsX, fitsY, _, (records.places _).mpr
    (.inr (List.mem_filterMap.mpr ⟨inner, member, recorded⟩)), recorded, rfl,
    ⟨fun placedAt => ?_, ?_⟩,
    fun placedAt rule place => placedAt.natAbs_le_reach ⟨highX, highY⟩ place⟩
  · exact ⟨(toInt_offset_eq_iff fitsX lowX highX).mp placedAt.x_eq,
      (toInt_offset_eq_iff fitsY lowY highY).mp placedAt.y_eq⟩
  · rintro ⟨smallX, smallY⟩
    exact ⟨(toInt_offset_eq_iff fitsX lowX highX).mpr smallX,
      (toInt_offset_eq_iff fitsY lowY highY).mpr smallY⟩

/-- The anchor of the rule in which a line is accepted. -/
def anchorOf? (texts : List (List Char)) (line : List Char) : Option Vec := do
  let b ← (Builder.lines {} 0 texts).toOption
  let d ← b.draft
  let _ ← (b.line texts.length line).toOption
  if d.phase ≠ .between ∧ d.rowsLeft = 0 then some d.rule.anchor else none

theorem exists_ruleLine {texts : List (List Char)} {line : List Char} {anchor : Vec}
    (word : keyword line ∈ ["eval", "set", "inc", "clamp"])
    (accepted : anchorOf? texts line = some anchor) :
    ∃ b d b', RuleLine texts b d line b' ∧ d.rule.anchor = anchor := by
  obtain ⟨b, run, accepted⟩ := Option.bind_eq_some_iff.mp accepted
  obtain ⟨d, draft, accepted⟩ := Option.bind_eq_some_iff.mp accepted
  obtain ⟨b', next, accepted⟩ := Option.bind_eq_some_iff.mp accepted
  split at accepted
  · rename_i place
    cases accepted
    exact ⟨b, d, b', ⟨eq_ok_of_toOption run, draft, place.1, place.2, word,
      eq_ok_of_toOption next⟩, rfl⟩
  · cases accepted

/-- The first lines of a rule of two cells in a row, anchored at the right one. -/
def emberLines : List (List Char) :=
  ["atom Empty \x7b", "section update \x7b", "match (1, 0, 2, 1) \x7b", "\x7d",
   "-> \x7b"].map String.toList

theorem heat_isRun : IsRun isNameChar "heat".toList :=
  ⟨List.cons_ne_nil _ _, List.all_eq_true.mp rfl⟩

theorem zero_isRun : IsRun Char.isDigit ['0'] :=
  ⟨List.cons_ne_nil _ _, List.all_eq_true.mp rfl⟩

/-- An ember is heated from the left, which is one cell away. -/
theorem ember_coordinates_recorded : ∃ b d b' d' slot,
    RuleLine emberLines b d "inc [heat] by [heat - 0, 0]".toList b' ∧ b'.draft = some d' ∧
      slot ∈ d'.rule.places ∧ IsAt ⟨1, 0⟩ 0 0 slot ∧ 1 ≤ d'.rule.reach.toNat := by
  obtain ⟨b, d, b', h, anchor⟩ := exists_ruleLine (by decide)
    (show anchorOf? emberLines "inc [heat] by [heat - 0, 0]".toList = some ⟨1, 0⟩ by
      decide +kernel)
  have shape : Expr.Coordinated "heat - 0, 0".toList "heat" 0 0 [] :=
    Expr.coordinated_usual heat_isRun zero_isRun zero_isRun
  obtain ⟨d', draft, -, each⟩ := coordinates_recorded h
  obtain ⟨-, -, slot, place, -, -, isAt_iff, reaches⟩ := each "heat - 0, 0".toList
    (by decide +kernel) "heat" 0 0 ⟨[], shape, List.forall_mem_nil _⟩
  rw [anchor] at isAt_iff reaches
  have placedAt := isAt_iff.mpr (by decide)
  exact ⟨b, d, b', d', slot, h, draft, place, placedAt, reaches placedAt d'.rule place⟩

/-- A condition on a cell four thousand million columns away is accepted, and reads the cell
on the left. -/
theorem ember_coordinates_wrap : ¬∀ texts b d line b', RuleLine texts b d line b' →
    ∀ inner ∈ brackets line, ∀ name x y, Writes inner name x y →
      ∃ slot, Expr.record d.rule.anchor inner = some slot ∧ IsAt d.rule.anchor x y slot := by
  intro claim
  obtain ⟨b, d, b', h, anchor⟩ := exists_ruleLine (by decide)
    (show anchorOf? (emberLines.take 2 ++ ["match (0, 0, 1, 1) \x7b".toList])
        "eval [heat - 4294967295, 0]".toList = some ⟨0, 0⟩ by
      decide +kernel)
  have far : digitsValue "4294967295".toList = 4294967295 := by decide +kernel
  have digits : IsRun Char.isDigit "4294967295".toList :=
    ⟨List.cons_ne_nil _ _, List.all_eq_true.mp rfl⟩
  have shape : Expr.Coordinated "heat - 4294967295, 0".toList "heat"
      (digitsValue "4294967295".toList) 0 [] :=
    Expr.coordinated_usual heat_isRun digits zero_isRun
  rw [far] at shape
  obtain ⟨slot, recorded, placedAt⟩ := claim _ b d _ b' h "heat - 4294967295, 0".toList
    (by decide +kernel) "heat" 4294967295 0 ⟨[], shape, List.forall_mem_nil _⟩
  rw [anchor] at recorded placedAt
  have wrapped : Expr.record ⟨0, 0⟩ "heat - 4294967295, 0".toList =
      some ⟨"heat", ⟨-1, 0⟩⟩ := by
    decide +kernel
  rw [wrapped] at recorded
  cases recorded
  exact absurd placedAt (by decide)

end Script

end FallingSand
