import FallingSand.Proofs.Script.Blocks
import FallingSand.Proofs.Script.Unresolved

/-!
# Rows of patterns

After the line `pattern` as many lines as the box is high are rows, whatever their words say
elsewhere, and each row has as many tokens as the box is wide. The rows are read one after the
other into the draft of the rule (`Draft.addRows`, `Builder.lines_rows`), and the pattern that
they make has the symbol of each token in its column and row (`Depicts.hasSymbol`). A block has
one pattern (`Builder.patterned_of_lines`).
-/

namespace FallingSand.Script

/-! ## Rows of a draft -/

/-- Whether a rule has the pattern that some tokens spell: that of its effect block, or that of its
match block. -/
def Depicts (phase : Phase) (rule : Rule) (tokens : List (List Char)) : Prop :=
  match phase with
  | .effect => rule.effect.toList = tokens.map EffectSymbol.ofToken
  | _ => ∃ symbols, rule.pattern = some symbols ∧
      symbols.toList = tokens.map MatchSymbol.ofToken

/-- What a token at a coordinate means to a rule, in its match block or in its effect block. -/
def HasSymbol (phase : Phase) (rule : Rule) (column row : Nat) (token : List Char) : Prop :=
  match phase with
  | .effect => rule.effectSymbol? column row = some (EffectSymbol.ofToken token)
  | _ => rule.matchSymbol? column row = some (MatchSymbol.ofToken token)

/-- Rows of tokens, each as wide as the box, stand in a pattern row by row. -/
theorem Depicts.hasSymbol {phase : Phase} {rule : Rule} {rows : List (List Char)}
    (depicts : Depicts phase rule (rows.flatMap Text.words))
    (wide : ∀ row ∈ rows, (Text.words row).length = rule.width.toNat) {column row : Nat}
    (inside : column < rule.width.toNat) {line token : List Char} (there : rows[row]? = some line)
    (here : (Text.words line)[column]? = some token) : HasSymbol phase rule column row token := by
  have found : (rows.flatMap Text.words)[rule.place column row]? = some token := by
    rw [Rule.place, RowsStand.getElem?_flatMap wide row inside, there]
    exact here
  cases phase with
  | effect =>
    have spelled : rule.effect.toList = (rows.flatMap Text.words).map EffectSymbol.ofToken :=
      depicts
    show rule.effectSymbol? column row = _
    rw [Rule.effectSymbol?, ← Array.getElem?_toList, spelled, List.getElem?_map, found]
    rfl
  | matching | between =>
    obtain ⟨symbols, pattern, spelled⟩ := depicts
    show rule.matchSymbol? column row = _
    rw [Rule.matchSymbol?, pattern]
    show symbols[rule.place column row]? = _
    rw [← Array.getElem?_toList, spelled, List.getElem?_map, found]
    rfl

namespace Draft

variable {d d' : Draft} {row : List Char} {rows tokens : List (List Char)}

/-- A draft with one more row of the pattern of its open block. -/
def addRow (d : Draft) (row : List Char) : Draft :=
  let rule := match d.phase with
    | .effect =>
      { d.rule with effect := d.rule.effect ++ (Text.words row).map EffectSymbol.ofToken }
    | _ =>
      { d.rule with
        pattern := some (d.rule.pattern.getD #[] ++ (Text.words row).map MatchSymbol.ofToken) }
  { d with rule, rowsLeft := d.rowsLeft - 1 }

def addRows (d : Draft) (rows : List (List Char)) : Draft := rows.foldl addRow d

theorem patternRow_eq (d : Draft) (row : List Char) : d.patternRow row =
    if (Text.words row).length ≠ d.rule.width.toNat then
      .error (.rowWidth d.rule.width.toNat (Text.words row).length)
    else .ok (d.addRow row) := rfl

/-- Rows leave everything as it is but the pattern. -/
structure SameBlock (d d' : Draft) : Prop where
  phase : d'.phase = d.phase
  patterned : d'.patterned = d.patterned
  width : d'.rule.width = d.rule.width
  height : d'.rule.height = d.rule.height

theorem addRow_sameBlock (d : Draft) (row : List Char) : d.SameBlock (d.addRow row) := by
  unfold addRow
  cases phase : d.phase <;> exact ⟨phase.symm, rfl, rfl, rfl⟩

theorem addRows_sameBlock (d : Draft) (rows : List (List Char)) :
    d.SameBlock (d.addRows rows) ∧ (d.addRows rows).rowsLeft = d.rowsLeft - rows.length := by
  induction rows generalizing d with
  | nil => exact ⟨⟨rfl, rfl, rfl, rfl⟩, rfl⟩
  | cons row rest ih =>
    obtain ⟨same, left⟩ := ih (d.addRow row)
    have first := d.addRow_sameBlock row
    refine ⟨⟨same.phase.trans first.phase, same.patterned.trans first.patterned,
      same.width.trans first.width, same.height.trans first.height⟩, ?_⟩
    rw [addRows, List.foldl_cons, ← addRows, left, List.length_cons]
    show d.rowsLeft - 1 - rest.length = _
    omega

theorem depicts_addRow (depicts : Depicts d.phase d.rule tokens) (row : List Char) :
    Depicts d.phase (d.addRow row).rule (tokens ++ Text.words row) := by
  unfold addRow
  cases phase : d.phase with
  | effect =>
    rw [phase] at depicts
    have spelled : d.rule.effect.toList = tokens.map EffectSymbol.ofToken := depicts
    show (d.rule.effect ++ (Text.words row).map EffectSymbol.ofToken).toList = _
    rw [Array.toList_appendList, spelled, List.map_append]
  | matching | between =>
    rw [phase] at depicts
    obtain ⟨symbols, pattern, spelled⟩ := depicts
    refine ⟨_, rfl, ?_⟩
    rw [pattern, Option.getD_some, Array.toList_appendList, spelled, List.map_append]

theorem depicts_addRows (depicts : Depicts d.phase d.rule tokens) :
    Depicts d.phase (d.addRows rows).rule (tokens ++ rows.flatMap Text.words) := by
  induction rows generalizing d tokens with
  | nil => simpa [addRows] using depicts
  | cons row rest ih =>
    have first := depicts_addRow depicts row
    rw [← (d.addRow_sameBlock row).phase] at first ⊢
    rw [List.flatMap_cons, ← List.append_assoc]
    exact ih first

/-- A pattern starts without symbols. -/
theorem beginPattern_eq (fresh : d.patterned = false) : ∃ d', d.beginPattern = .ok d' ∧
    d'.phase = d.phase ∧ d'.patterned = true ∧ d'.rule.width = d.rule.width ∧
    d'.rule.height = d.rule.height ∧ d'.rowsLeft = d.rule.height.toNat ∧
    Depicts d.phase d'.rule [] := by
  unfold beginPattern
  rw [fresh, if_neg Bool.false_ne_true]
  refine ⟨_, rfl, rfl, rfl, ?_, ?_, rfl, ?_⟩
  all_goals cases d.phase with
    | effect => exact rfl
    | matching | between => first | exact rfl | exact ⟨#[], rfl, rfl⟩

end Draft

namespace Builder

variable {b b' : Builder} {d : Draft} {index : Nat} {text : List Char}
  {rows : List (List Char)}

/-! ## Rows of a script -/

theorem line_row (draft : b.draft = some d) (left : 0 < d.rowsLeft) (other : text ≠ closing) :
    b.line index text =
      if (Text.words text).length ≠ d.rule.width.toNat then
        .error (.rowWidth d.rule.width.toNat (Text.words text).length)
      else .ok { b with draft := some (d.addRow text) } := by
  have apart : text ≠ ['\x7d'] := other
  unfold Builder.line
  dsimp only
  rw [draft]
  dsimp only
  rw [if_pos left, if_neg apart, Draft.patternRow_eq]
  split <;> rfl

theorem line_closing_rows (draft : b.draft = some d) (left : 0 < d.rowsLeft) :
    b.line index closing =
      .error (.rowCount d.rule.height.toNat (d.rule.height.toNat - d.rowsLeft)) := by
  rw [line_closing draft, Draft.ended, if_pos left]
  rfl

/-- A row of a pattern: a line with as many tokens as the box is wide, and not the one that closes
a block. -/
def IsRow (width : Nat) (text : List Char) : Prop :=
  text ≠ closing ∧ (Text.words text).length = width

instance (width : Nat) (text : List Char) : Decidable (IsRow width text) :=
  inferInstanceAs (Decidable (_ ∧ _))

/-- As long as a pattern lacks rows, the lines that are accepted are its rows. -/
theorem lines_rows (draft : b.draft = some d) (few : rows.length ≤ d.rowsLeft) :
    b.lines index rows = .ok b' ↔ (∀ row ∈ rows, IsRow d.rule.width.toNat row) ∧
      b' = { b with draft := some (d.addRows rows) } := by
  induction rows generalizing b d index with
  | nil =>
    have same : { b with draft := some (d.addRows []) } = b := by
      rw [Draft.addRows, List.foldl_nil, ← draft]
    simp [lines, same, eq_comm]
  | cons row rest ih =>
    rw [List.length_cons] at few
    have left : 0 < d.rowsLeft := by omega
    by_cases closes : row = closing
    · rw [lines_cons, closes, line_closing_rows draft left]
      constructor
      · intro h
        cases h
      · rintro ⟨good, -⟩
        exact absurd rfl (good closing List.mem_cons_self).1
    rw [lines_cons, line_row draft left closes]
    by_cases wide : (Text.words row).length = d.rule.width.toNat
    · rw [if_neg (not_not_intro wide)]
      have fewer : rest.length ≤ (d.addRow row).rowsLeft := by
        show rest.length ≤ d.rowsLeft - 1
        omega
      have later : Builder.lines _ (index + 1) rest = .ok b' ↔ _ :=
        ih (b := { b with draft := some (d.addRow row) }) (d := d.addRow row) rfl fewer
      rw [(d.addRow_sameBlock row).width] at later
      show Builder.lines _ (index + 1) rest = .ok b' ↔ _
      rw [later]
      constructor
      · rintro ⟨good, rfl⟩
        refine ⟨?_, rfl⟩
        intro other member
        rcases List.mem_cons.mp member with rfl | member
        · exact ⟨closes, wide⟩
        · exact good other member
      · rintro ⟨good, rfl⟩
        exact ⟨fun other member => good other (List.mem_cons_of_mem _ member), rfl⟩
    · rw [if_pos wide]
      constructor
      · intro h
        cases h
      · rintro ⟨good, -⟩
        exact absurd (good row List.mem_cons_self).2 wide

/-- Reading rows finishes no rule. -/
theorem gather_rows (draft : b.draft = some d) (few : rows.length ≤ d.rowsLeft)
    (good : ∀ row ∈ rows, IsRow d.rule.width.toNat row) :
    b.gather finished? index rows = [] := by
  induction rows generalizing b d index with
  | nil => rfl
  | cons row rest ih =>
    rw [List.length_cons] at few
    obtain ⟨other, wide⟩ := good row List.mem_cons_self
    have accepted : b.line index row = .ok { b with draft := some (d.addRow row) } := by
      rw [line_row draft (by omega) other, if_neg (not_not_intro wide)]
    rw [gather_cons accepted, finished?_of_draft rfl]
    refine ih (d := d.addRow row) rfl ?_ ?_
    · show rest.length ≤ d.rowsLeft - 1
      omega
    · intro other member
      rw [(d.addRow_sameBlock row).width]
      exact good other (List.mem_cons_of_mem _ member)

/-! ## Opening a pattern -/

theorem line_pattern (draft : b.draft = some d) (complete : d.rowsLeft = 0)
    (inside : d.phase ≠ .between) : b.line index "pattern".toList = do
      let draft ← d.beginPattern
      let effectLine := if d.phase = .effect then index else b.effectLine
      return { b with draft := some draft, effectLine } := by
  unfold Builder.line
  dsimp only
  rw [draft]
  dsimp only
  rw [if_neg (by omega), if_neg (by decide), if_neg inside, blockLine, if_pos rfl]

/-- The lines of a block that has its pattern, up to where it is closed. -/
theorem patterned_of_lines {inner : List (List Char)} (draft : b.draft = some d)
    (inside : d.phase ≠ .between) (complete : d.rowsLeft = 0) (patterned : d.patterned = true)
    (apart : closing ∉ inner) (run : b.lines index inner = .ok b') :
    ∃ d', b'.draft = some d' ∧ d'.phase = d.phase ∧ d'.rowsLeft = 0 ∧ d'.patterned = true := by
  induction inner generalizing b d index with
  | nil =>
    cases run
    exact ⟨d, draft, rfl, complete, patterned⟩
  | cons text rest ih =>
    obtain ⟨other, apart⟩ := not_or.mp (mt List.mem_cons.mpr apart)
    obtain ⟨next, accepted, run⟩ := lines_cons_ok.mp run
    obtain ⟨d', read, effectLine, rfl⟩ :=
      (line_inside draft inside (Ne.symm other) index).exists_left accepted
    have kept : d'.phase = d.phase ∧ d'.rowsLeft = 0 ∧ d'.patterned = true := by
      unfold Draft.blockLine at read
      rw [if_neg (by omega)] at read
      split at read
      · rw [(Draft.beginPattern_ok read).1] at patterned
        cases patterned
      split at read
      · obtain ⟨_, _, -, rfl⟩ := Draft.matchLine_ok read
        exact ⟨rfl, complete, patterned⟩
      · obtain ⟨_, -, rfl⟩ := Draft.effectLine_ok read
        exact ⟨rfl, complete, patterned⟩
    obtain ⟨last, found, phase, others⟩ := ih (d := d') rfl (kept.1 ▸ inside) kept.2.1 kept.2.2
      apart run
    exact ⟨last, found, phase.trans kept.1, others⟩

end Builder

/-! ## Problems -/

/-- The first problem of a script is that of the line on which its lines stop. -/
theorem compile_eq_error {source : List Char} {kept before after : List Line} {line : Line}
    (read : lines source = .ok kept) (parts : kept = before ++ line :: after) {b : Builder}
    (run : Builder.lines {} 0 (before.map (·.text)) = .ok b) {problem : Problem}
    (stops : b.line before.length line.text = .error problem) :
    compile source = .error (.onLine line.number problem) := by
  have stopped : Builder.lines {} 0 (kept.map (·.text)) = .error (before.length, problem) := by
    rw [parts, List.map_append, List.map_cons, Builder.lines_of_reached run, List.length_map,
      Builder.lines_cons, stops]
    rfl
  have numbered : kept[before.length]? = some line := by rw [parts]; simp
  unfold compile
  rw [read]
  dsimp only
  rw [compileLines, stopped]
  dsimp only [Except.mapError]
  rw [numbered]
  rfl

end FallingSand.Script
