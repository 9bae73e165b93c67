import FallingSand.Proofs.Script.WellFormed
import Mathlib.Data.List.Induction

/-!
# How effects fit their boxes

An effect block is written for the box of the match block before it: the cells that
it captures lie in the box, and its pattern is read in rows as wide as the box. What
`repeat effect` takes over is compared with the new box by the number of symbols
alone. So effects fit their boxes in the scripts that use effect blocks again under
the box and the anchor that they were written for, and in others they may not:
`turned` captures a cell outside its box.

The rows of a pattern are lines of the script. The state of the builder does not hold
them, so they are followed along the lines that have been read (`rows_of_draft`).
-/

namespace FallingSand

/-- A rule that captures cells of its box alone. -/
def Rule.Bounded (rule : Rule) : Prop :=
  ∀ symbol source, Step.bind symbol source ∈ rule.steps →
    (rule.anchor + source).inBounds rule.size = true

instance (rule : Rule) : Decidable rule.Bounded :=
  decidable_of_iff (rule.steps.all (fun
    | .bind _ source => (rule.anchor + source).inBounds rule.size
    | _ => true) = true) <| by
    rw [List.all_eq_true]
    constructor
    · intro all symbol source member
      exact all _ member
    · intro bounded step member
      cases step with
      | bind symbol source => exact bounded symbol source member
      | update | map => rfl

namespace Script

/-! ## Captured cells -/

theorem Written.bounded {rule : Rule} {added : List Step} (h : Written rule added)
    {symbol : String} {source : Vec} (member : Step.bind symbol source ∈ added) :
    (rule.anchor + source).inBounds rule.size = true := by
  cases h with
  | bind symbol hx hy =>
    cases List.mem_singleton.mp member
    rw [Vec.add_sub_cancel]
    exact anchor_inBounds hx hy
  | update => simp at member
  | clamp => simp at member

/-- The captures of a draft are written for its own box. -/
theorem boundedClosure :
    Closure (fun _ => True) (fun _ => True) (fun d => d.rule.Bounded) where
  toRuleClosure := .trivial
  number _ _ := trivial
  beginMatch _ _ _ := fun _ _ member => nomatch member
  row _ h bounded := by
    obtain ⟨-, ⟨-, rfl⟩ | ⟨-, rfl⟩⟩ := Draft.patternRow_ok h
    · exact bounded
    · exact bounded
  pattern _ _ h bounded := by
    obtain ⟨-, ⟨-, rfl⟩ | ⟨-, rfl⟩⟩ := Draft.beginPattern_ok h
    · intro symbol source member
      exact bounded symbol source (by simpa using member)
    · exact bounded
  matchLine _ _ h bounded := by
    obtain ⟨_, _, -, rfl⟩ := Draft.matchLine_ok h
    exact bounded
  effectLine _ _ h bounded := by
    obtain ⟨rule, change, rfl⟩ := Draft.effectLine_ok h
    cases change with
    | nonBreak | always | shift => exact bounded
    | steps written =>
      intro symbol source member
      rcases List.mem_append.mp member with old | new
      · exact bounded symbol source old
      · exact written.bounded new
  endMatch _ _ bounded := bounded
  beginEffect _ _ _ bounded := bounded
  endEffect _ _ _ _ := trivial
  repeatMatch _ := fun _ _ member => nomatch member
  repeatEffect _ _ _ _ _ := trivial

/-! ## Rows of the script -/

/-- The lines of a script up to some point end with rows of an effect pattern and
further lines: the pattern was opened in an effect block with the box of a rule, and its
rows, as wide as the box, are the effect of the rule. -/
structure RowsStand (texts : List (List Char)) (rule : Rule) (rows after : List (List Char)) :
    Prop where
  opened : ∃ before b d, texts = before ++ "pattern".toList :: (rows ++ after) ∧
    Builder.lines {} 0 before = .ok b ∧ b.draft = some d ∧ d.phase = .effect ∧
    d.rule.width = rule.width ∧ d.rule.height = rule.height
  wide : ∀ row ∈ rows, (Text.words row).length = rule.width.toNat
  effect : rule.effect.toList =
    rows.flatMap fun row => (Text.words row).map EffectSymbol.ofToken

namespace RowsStand

variable {texts rows after : List (List Char)} {rule rule' : Rule}

/-- Only the box and the effect of the rule matter. -/
theorem of_rule (stand : RowsStand texts rule rows after) (width : rule'.width = rule.width)
    (height : rule'.height = rule.height) (effect : rule'.effect = rule.effect) :
    RowsStand texts rule' rows after := by
  refine ⟨?_, ?_, ?_⟩
  · rw [width, height]
    exact stand.opened
  · rw [width]
    exact stand.wide
  · rw [effect]
    exact stand.effect

/-- Further lines may follow. -/
theorem append (stand : RowsStand texts rule rows after) (more : List (List Char)) :
    RowsStand (texts ++ more) rule rows (after ++ more) := by
  obtain ⟨before, b, d, rfl, run, reached⟩ := stand.opened
  exact ⟨⟨before, b, d, by simp, run, reached⟩, stand.wide, stand.effect⟩

/-- The next row of the pattern. -/
theorem row {line : List Char} (stand : RowsStand texts rule rows [])
    (wide : (Text.words line).length = rule.width.toNat) :
    RowsStand (texts ++ [line])
      { rule with effect := rule.effect ++ (Text.words line).map EffectSymbol.ofToken }
      (rows ++ [line]) [] := by
  obtain ⟨before, b, d, rfl, run, reached⟩ := stand.opened
  refine ⟨⟨before, b, d, by simp, run, reached⟩, ?_, ?_⟩
  · intro row member
    rcases List.mem_append.mp member with old | new
    · exact stand.wide row old
    · rw [List.mem_singleton.mp new]
      exact wide
  · simp [stand.effect]

theorem getElem?_flatMap {α β : Type} {f : α → List β} {width : Nat} {xs : List α}
    (wide : ∀ x ∈ xs, (f x).length = width) (row : Nat) {column : Nat}
    (inside : column < width) :
    (xs.flatMap f)[row * width + column]? = xs[row]?.bind fun x => (f x)[column]? := by
  induction xs generalizing row with
  | nil => simp
  | cons x rest ih =>
    have here := wide x List.mem_cons_self
    rw [List.flatMap_cons]
    cases row with
    | zero =>
      rw [Nat.zero_mul, Nat.zero_add, List.getElem?_append_left (by omega)]
      rfl
    | succ row =>
      rw [Nat.succ_mul, List.getElem?_append_right (by omega), here]
      rw [show row * width + width + column - width = row * width + column by omega]
      exact ih (fun y member => wide y (List.mem_cons_of_mem _ member)) row

/-- The symbol at a coordinate is the one that is written there. -/
theorem effectSymbol? (stand : RowsStand texts rule rows after) {row column : Nat}
    (inside : column < rule.width.toNat) : rule.effectSymbol? column row =
      rows[row]?.bind fun line => (Text.words line)[column]?.map EffectSymbol.ofToken := by
  have wide : ∀ line ∈ rows, ((Text.words line).map EffectSymbol.ofToken).length =
      rule.width.toNat := by simpa using stand.wide
  have found := getElem?_flatMap wide row inside
  rw [Rule.effectSymbol?, ← Array.getElem?_toList, stand.effect, Rule.place, found]
  simp

end RowsStand

/-- The pattern of an open effect block stands in the lines that have been read, opened by the
line with an index. -/
def RowsRead (texts : List (List Char)) (place : Nat) (d : Draft) : Prop :=
  ∃ rows after, RowsStand texts d.rule rows after ∧
    rows.length + d.rowsLeft = d.rule.height.toNat ∧ (0 < d.rowsLeft → after = []) ∧
    place + 1 + rows.length + after.length = texts.length

namespace RowsRead

variable {texts : List (List Char)} {place : Nat} {d : Draft} {line : List Char}

/-- A complete pattern stays where it is while the block goes on. -/
theorem later (read : RowsRead texts place d) (complete : d.rowsLeft = 0) {rule : Rule}
    (width : rule.width = d.rule.width) (height : rule.height = d.rule.height)
    (effect : rule.effect = d.rule.effect) :
    RowsRead (texts ++ [line]) place { d with rule } := by
  obtain ⟨rows, after, stand, count, -, length⟩ := read
  refine ⟨rows, after ++ [line], (stand.of_rule width height effect).append [line], ?_, ?_, ?_⟩
  · rw [height]
    exact count
  · intro left
    dsimp only at left
    omega
  · simp only [List.length_append, List.length_singleton]
    omega

theorem row (read : RowsRead texts place d) (left : 0 < d.rowsLeft)
    (wide : (Text.words line).length = d.rule.width.toNat) :
    RowsRead (texts ++ [line]) place { d with
      rule := { d.rule with
        effect := d.rule.effect ++ (Text.words line).map EffectSymbol.ofToken }
      rowsLeft := d.rowsLeft - 1 } := by
  obtain ⟨rows, after, stand, count, last, length⟩ := read
  obtain rfl := last left
  simp only [List.length_nil] at length
  refine ⟨rows ++ [line], [], stand.row wide, ?_, fun _ => rfl, ?_⟩
  all_goals
    simp only [List.length_append, List.length_singleton, List.length_nil]
    omega

end RowsRead

/-- In an effect block that has its pattern, the pattern stands in the lines before, where
the builder says. -/
theorem rows_of_draft {texts : List (List Char)} {b : Builder} {d : Draft}
    (h : Builder.lines {} 0 texts = .ok b) (draft : b.draft = some d)
    (effect : d.phase = .effect) (patterned : d.patterned = true) :
    RowsRead texts b.effectLine d := by
  induction texts using List.reverseRecOn generalizing b d with
  | nil =>
    cases h
    cases draft
  | append_singleton texts line ih =>
    obtain ⟨b₀, run, accepted⟩ := Builder.lines_append_ok.mp h
    rw [Builder.lines_singleton_ok] at accepted
    rcases Builder.row_or_complete accepted with ⟨d₀, d', draft₀, left, row, rfl⟩ | complete
    -- the line is a row of the open pattern
    · cases draft
      have shaped := shapedClosure.draft_of_lines run draft₀
      have patterned := (shaped.inPattern left).1
      obtain ⟨wide, ⟨phase, rfl⟩ | ⟨phase, rfl⟩⟩ := Draft.patternRow_ok row
      · exact (ih run draft₀ phase patterned).row left wide
      · exact absurd effect phase
    -- no pattern lacks rows, so an open one was complete before the line
    have unchanged (same : b.draft = b₀.draft) (place : b.effectLine = b₀.effectLine) :
        RowsRead (texts ++ [line]) b.effectLine d := by
      rw [same] at draft
      rw [place]
      exact (ih run draft effect patterned).later (complete d draft) rfl rfl rfl
    cases Builder.next_of_line accepted with
    | row draft₀ left row =>
      have none := complete _ draft₀
      omega
    | pattern draft₀ left inside same opened =>
      cases draft
      obtain ⟨-, ⟨phase, rfl⟩ | ⟨phase, rfl⟩⟩ := Draft.beginPattern_ok opened
      · refine ⟨[], [], ⟨⟨texts, _, _, by rw [same]; rfl, run, draft₀, phase, rfl, rfl⟩, ?_, ?_⟩,
          by simp, fun _ => rfl, ?_⟩
        · simp
        · rfl
        · simp [phase]
      · exact absurd effect phase
    | matchLine draft₀ left phase added =>
      cases draft
      obtain ⟨_, _, -, rfl⟩ := Draft.matchLine_ok added
      exact nomatch phase.symm.trans effect
    | effectLine draft₀ left phase added =>
      cases draft
      obtain ⟨rule, change, rfl⟩ := Draft.effectLine_ok added
      refine (ih run draft₀ phase patterned).later left ?_ ?_ ?_
      all_goals cases change <;> rfl
    | endMatch | repeatMatch | beginMatch =>
      cases draft
      cases effect
    | beginEffect =>
      cases draft
      cases patterned
    | endEffect _ _ _ finished | repeatEffect _ _ _ _ _ finished =>
      obtain ⟨-, rfl⟩ := Builder.finish_ok finished
      cases draft
    | inherit none =>
      rw [Builder.kept_inherit.1, none] at draft
      cases draft
    | inheritNothing | change | openPart | closePart | closeAtom | closeRuleset | openAtom
      | openRuleset | global | preload | default =>
      exact unchanged rfl rfl

/-! ## Effects that are used again -/

namespace Builder

/-- Whether a line that uses an effect block again does so under the box and the anchor
that the block was written for. -/
def KeepsBox (b : Builder) (line : List Char) : Prop :=
  Form.repetition.read line = .ok .effect → ∀ d, b.draft = some d → d.phase = .between →
    ∀ previous, b.previous = some previous → previous.width = d.rule.width ∧
      previous.height = d.rule.height ∧ previous.anchor = d.rule.anchor

instance (b : Builder) (line : List Char) : Decidable (b.KeepsBox line) :=
  inferInstanceAs (Decidable (_ → _))

/-- Whether all lines do, as far as they are accepted. -/
def KeepsBoxes (b : Builder) (index : Nat) : List (List Char) → Prop
  | [] => True
  | line :: rest => b.KeepsBox line ∧
    ∀ b', b.line index line = .ok b' → b'.KeepsBoxes (index + 1) rest

def decideKeepsBoxes (b : Builder) (index : Nat) :
    (texts : List (List Char)) → Decidable (b.KeepsBoxes index texts)
  | [] => .isTrue trivial
  | line :: rest =>
    have : Decidable (∀ b', b.line index line = .ok b' → b'.KeepsBoxes (index + 1) rest) :=
      match b.line index line with
      | .error _ => .isTrue fun _ h => nomatch h
      | .ok b' =>
        match decideKeepsBoxes b' (index + 1) rest with
        | .isTrue keeps => .isTrue fun _ h => Except.ok.inj h ▸ keeps
        | .isFalse keeps => .isFalse fun all => keeps (all b' rfl)
    inferInstanceAs (Decidable (_ ∧ _))

instance (b : Builder) (index : Nat) (texts : List (List Char)) :
    Decidable (b.KeepsBoxes index texts) := decideKeepsBoxes b index texts

theorem KeepsBoxes.at {b b' : Builder} {index : Nat} {before after : List (List Char)}
    {line : List Char} (keeps : b.KeepsBoxes index (before ++ line :: after))
    (h : b.lines index before = .ok b') : b'.KeepsBox line := by
  induction before generalizing b index with
  | nil =>
    cases h
    exact keeps.1
  | cons text rest ih =>
    unfold lines at h
    split at h
    · rename_i next accepted
      exact ih (keeps.2 next accepted) h
    · cases h

end Builder

/-- A rule whose effect is written for its own box, its pattern in the lines of a script. -/
structure Fits (texts : List (List Char)) (rule : Rule) : Prop where
  bounded : rule.Bounded
  written : rule.hasMap = true → ∃ rows after,
    RowsStand texts rule rows after ∧ rows.length = rule.height.toNat

namespace Fits

variable {texts : List (List Char)} {rule rule' : Rule}

theorem of_rule (fits : Fits texts rule) (width : rule'.width = rule.width)
    (height : rule'.height = rule.height) (anchor : rule'.anchor = rule.anchor)
    (steps : rule'.steps = rule.steps) (effect : rule'.effect = rule.effect) :
    Fits texts rule' := by
  refine ⟨?_, ?_⟩
  · rw [Rule.Bounded, steps, anchor, Rule.size, width, height]
    exact fits.bounded
  · rw [Rule.hasMap, steps, height]
    intro map
    obtain ⟨rows, after, stand, count⟩ := fits.written map
    exact ⟨rows, after, stand.of_rule width height effect, count⟩

theorem numbered (id : Nat) (fits : Fits texts rule) : Fits texts { rule with id } :=
  fits.of_rule rfl rfl rfl rfl rfl

theorem closure : RuleClosure (fun _ => True) (Fits texts) where
  newAtom _ _ _ _ := trivial
  change _ _ := trivial
  addRules _ _ _ := trivial
  copy _ fits := fits.of_rule rfl rfl rfl rfl rfl

/-- A rule that a line finishes fits its box. -/
theorem of_ends {before after : List (List Char)} {line : List Char} {b : Builder}
    (run : Builder.lines {} 0 before = .ok b) (keeps : b.KeepsBox line)
    (finished : Finished (fun _ => True) (Fits (before ++ after)) b)
    (h : b.Ends line rule) : Fits (before ++ after) rule := by
  cases h with
  | effect draft rows effect complete =>
    rename_i d
    refine ⟨boundedClosure.draft_of_lines run draft, ?_⟩
    intro map
    have formed := wellFormedClosure.draft_of_lines run draft
    have patterned : d.patterned = true := by
      by_contra unpatterned
      have none := (formed.unwritten (.inr (by simpa using unpatterned))).1
      rw [map] at none
      cases none
    obtain ⟨lines, rest, stand, count, -, -⟩ := rows_of_draft run draft effect patterned
    exact ⟨lines, rest ++ after, stand.append after, by rw [← count, rows, Nat.add_zero]⟩
  | repeated draft rows between before form complete =>
    obtain ⟨width, height, anchor⟩ := keeps form _ draft between _ before
    exact (finished.previous _ before).of_rule width.symm height.symm anchor.symm rfl rfl

/-- As long as effect blocks keep their boxes, all rules that are finished fit theirs. -/
theorem of_lines {before after : List (List Char)} {b : Builder}
    (keeps : Builder.KeepsBoxes {} 0 (before ++ after))
    (run : Builder.lines {} 0 before = .ok b) :
    Finished (fun _ => True) (Fits (before ++ after)) b := by
  induction before using List.reverseRecOn generalizing b after with
  | nil =>
    cases run
    exact .start
  | append_singleton before line ih =>
    rw [List.append_assoc] at keeps ⊢
    obtain ⟨b₀, run₀, accepted⟩ := Builder.lines_append_ok.mp run
    rw [Builder.lines_singleton_ok] at accepted
    have finished := ih keeps run₀
    refine finished.next closure (Builder.next_of_line accepted) (fun id _ => numbered id) ?_
    exact fun _ ends _ => numbered _ (of_ends run₀ (keeps.at run₀) finished ends)

end Fits

/-- In a script that uses effect blocks again under their own boxes alone, every rule
captures cells of its box, and its effect pattern is written as rows of the box. -/
theorem effects_fit_boxes {source : List Char} {kept : List Line} {compiled : Compiled}
    (read : lines source = .ok kept) (h : compile source = .ok compiled)
    (keeps : Builder.KeepsBoxes {} 0 (kept.map (·.text))) :
    ∀ atom ∈ compiled.world.atoms, ∀ rule ∈ atom.allRules, rule.Bounded ∧
      (rule.hasMap = true → ∃ rows after, RowsStand (kept.map (·.text)) rule rows after ∧
        rows.length = rule.height.toNat ∧
        ∀ row column, column < rule.width.toNat → rule.effectSymbol? column row =
          rows[row]?.bind fun line => (Text.words line)[column]?.map EffectSymbol.ofToken) := by
  intro atom member rule among
  obtain ⟨kept', b, read', run, atoms, -⟩ := Builder.exists_run_of_compile h
  rw [read] at read'
  cases read'
  have finished : Finished (fun _ => True) (Fits (kept.map (·.text) ++ [])) b :=
    Fits.of_lines (by simpa using keeps) run
  rw [List.append_nil] at finished
  rw [atoms] at member
  have fits := finished.rules_of_mem member rule among
  refine ⟨fits.bounded, ?_⟩
  intro map
  obtain ⟨rows, after, stand, count⟩ := fits.written map
  exact ⟨rows, after, stand, count, fun row column inside => stand.effectSymbol? inside⟩

/-! ## Scripts -/

/-- A script with a type that sinks through empty cells, and through others where it is
heavy, by one effect. -/
def settling : List Char :=
  ["default weight 1",
   "atom Empty \x7b", "\x7d",
   "atom Sand \x7b", "section update \x7b",
   "match (0, 0, 1, 2) \x7b", "pattern", "x", "_", "\x7d",
   "-> \x7b", "def under = (0, 1)", "pattern", "under", "x", "\x7d",
   "match (0, 0, 1, 2) \x7b", "pattern", "x", "n", "eval [weight] > 1", "\x7d",
   "repeat effect",
   "\x7d", "\x7d"].flatMap fun line => line.toList ++ ['\n']

theorem settling_compiles : (compile settling).toOption.isSome = true := by decide +kernel

theorem settling_read : (lines settling).toOption.isSome = true := by decide +kernel

theorem settled_fit_boxes : ∃ kept compiled, lines settling = .ok kept ∧
    compile settling = .ok compiled ∧ Builder.KeepsBoxes {} 0 (kept.map (·.text)) ∧
    ∀ atom ∈ compiled.world.atoms, ∀ rule ∈ atom.allRules, rule.Bounded ∧
      (rule.hasMap = true → ∃ rows after, RowsStand (kept.map (·.text)) rule rows after ∧
        rows.length = rule.height.toNat ∧
        ∀ row column, column < rule.width.toNat → rule.effectSymbol? column row =
          rows[row]?.bind fun line => (Text.words line)[column]?.map EffectSymbol.ofToken) := by
  obtain ⟨compiled, found⟩ := Option.isSome_iff_exists.mp settling_compiles
  obtain ⟨kept, read⟩ := Option.isSome_iff_exists.mp settling_read
  have keeps : ∀ kept, (lines settling).toOption = some kept →
      Builder.KeepsBoxes {} 0 (kept.map (·.text)) := by decide +kernel
  refine ⟨kept, compiled, eq_ok_of_toOption read, eq_ok_of_toOption found, keeps kept read, ?_⟩
  exact effects_fit_boxes (eq_ok_of_toOption read) (eq_ok_of_toOption found) (keeps kept read)

/-- A script that uses an effect for two cells side by side again for two cells one above
the other. -/
def turned : List Char :=
  ["atom Empty \x7b", "section update \x7b",
   "match (0, 0, 2, 1) \x7b", "\x7d",
   "-> \x7b", "def a = (1, 0)", "pattern", "x a", "\x7d",
   "match (0, 0, 1, 2) \x7b", "\x7d",
   "repeat effect",
   "\x7d", "\x7d"].flatMap fun line => line.toList ++ ['\n']

theorem turned_compiles : (compile turned).toOption.isSome = true := by decide +kernel

/-- Not every effect fits its box. -/
theorem turned_unbounded : ∃ compiled, compile turned = .ok compiled ∧
    ∃ atom ∈ compiled.world.atoms, ∃ rule ∈ atom.allRules, ¬rule.Bounded := by
  obtain ⟨compiled, found⟩ := Option.isSome_iff_exists.mp turned_compiles
  have outside : ∀ compiled, (compile turned).toOption = some compiled →
      ∃ atom ∈ compiled.world.atoms, ∃ rule ∈ atom.allRules, ¬rule.Bounded := by
    decide +kernel
  exact ⟨compiled, eq_ok_of_toOption found, outside compiled found⟩

end Script

end FallingSand
