import FallingSand.Proofs.Script.Gathering
import FallingSand.Proofs.Script.Layout
import FallingSand.Proofs.Script.References

/-!
# Symbols that nothing stands for

Whether the symbols of effects have a meaning is settled at the end of a script, from what
was noted when the rules were finished: each unbound symbol with the line of the last effect
block, once for each line. This gives the same answer as a look at all finished rules in the
order of the script, the symbols of each in the order in which they are written
(`references_find?`), and the line is that of the pattern in which the symbol stands.

An effect that is used again is noted with the line of some other block. It is, however, the
effect of a rule that was finished before (`exists_finished`), so that none of its symbols is
the first without a meaning.
-/

namespace FallingSand

/-- Whether a symbol has a meaning in the effect of a rule: the rule binds it, or it is the
alias or the name of an atom. -/
def Rule.Resolves (rule : Rule) (atoms : Array AtomType) (symbol : String) : Prop :=
  symbol ∈ rule.boundSymbols ∨
    ∃ atom ∈ atoms, atom.aliasName = some symbol ∨ atom.name = symbol

theorem World.placeable?_isSome {world : World} {symbol : String} :
    (world.placeable? symbol).isSome ↔
      ∃ atom ∈ world.atoms, atom.aliasName = some symbol ∨ atom.name = symbol := by
  unfold placeable? idOfAlias? idOfName?
  rw [Option.isSome_or, Option.isSome_map, Option.isSome_map, Bool.or_eq_true,
    Array.find?_isSome, Array.find?_isSome]
  simp only [beq_iff_eq]
  constructor
  · rintro (⟨atom, member, named⟩ | ⟨atom, member, named⟩)
    · exact ⟨atom, member, .inl named⟩
    · exact ⟨atom, member, .inr named⟩
  · rintro ⟨atom, member, named | named⟩
    · exact .inl ⟨atom, member, named⟩
    · exact .inr ⟨atom, member, named⟩

namespace Script

/-! ## Finished rules -/

namespace Builder

/-- The rule that a line finishes. Before it a rule is open and afterwards none. -/
def finished? (before after : Builder) : Option Rule :=
  if before.draft.isSome && after.draft.isNone then after.previous else none

/-- The rule that a line finishes, with the line of the last effect block. -/
def placed? (before after : Builder) : Option (Nat × Rule) :=
  (finished? before after).map fun rule => (before.effectLine, rule)

variable {b b' : Builder} {index : Nat} {line : List Char}

theorem finished?_of_finish {d : Draft} {rule : Rule} (draft : b.draft = some d)
    (h : finish { b with draft := none } rule = .ok b') :
    finished? b b' = some { rule with id := b.nextId } ∧
      b'.references = (b.refer rule).references := by
  obtain ⟨-, rfl⟩ := finish_ok h
  unfold finished?
  rw [draft]
  exact ⟨rfl, rfl⟩

/-- No rule is finished as long as one is being written. -/
theorem finished?_of_draft {d : Draft} (draft : b'.draft = some d) : finished? b b' = none := by
  rw [finished?, draft, Option.isNone_some, Bool.and_false]
  rfl

/-- A line that finishes a rule notes the symbols of the rule, and others note nothing. -/
theorem Next.finished?_cases (h : b.Next index line b') :
    (∃ rule, b.Ends line rule ∧ finished? b b' = some { rule with id := b.nextId } ∧
      b'.references = (b.refer rule).references) ∨
    finished? b b' = none ∧ b'.references = b.references := by
  have free {b'' : Builder} (noDraft : b.draft = none) : finished? b b'' = none := by
    rw [finished?, noDraft]
    rfl
  have kept {b'' : Builder} (same : b''.draft = b.draft) : finished? b b'' = none := by
    rw [finished?, same]
    cases b.draft <;> rfl
  cases h with
  | endEffect draft rows phase finished =>
    exact .inl ⟨_, .effect draft rows phase (finish_ok finished).1,
      finished?_of_finish draft finished⟩
  | repeatEffect draft rows phase before form finished =>
    exact .inl ⟨_, .repeated draft rows phase before form (finish_ok finished).1,
      finished?_of_finish draft finished⟩
  | inherit noDraft => exact .inr ⟨free noDraft, kept_inherit.2⟩
  | row | pattern | matchLine | effectLine | endMatch | beginMatch | beginEffect | repeatMatch =>
    exact .inr ⟨finished?_of_draft rfl, rfl⟩
  | inheritNothing | change | openPart | closePart | closeAtom | closeRuleset | openAtom
    | openRuleset | global | preload | default =>
    exact .inr ⟨kept rfl, rfl⟩

/-- Where an effect block has its pattern, the line before it opened the pattern, or there was
an effect block with its pattern before. -/
theorem Next.patterned (h : b.Next index line b') {d : Draft} (draft : b'.draft = some d)
    (effect : d.phase = .effect) (patterned : d.patterned = true) :
    (line = "pattern".toList ∧ b'.effectLine = index) ∨
      ∃ d₀, b.draft = some d₀ ∧ d₀.phase = .effect ∧ d₀.patterned = true ∧
        b'.effectLine = b.effectLine := by
  cases h with
  | row draft₀ left row =>
    cases draft
    obtain ⟨-, ⟨-, rfl⟩ | ⟨-, rfl⟩⟩ := Draft.patternRow_ok row
    · exact .inr ⟨_, draft₀, effect, patterned, rfl⟩
    · exact .inr ⟨_, draft₀, effect, patterned, rfl⟩
  | pattern draft₀ left inside same opened =>
    cases draft
    obtain ⟨-, ⟨phase, rfl⟩ | ⟨phase, rfl⟩⟩ := Draft.beginPattern_ok opened
    · exact .inl ⟨same, if_pos phase⟩
    · exact absurd effect phase
  | matchLine draft₀ left phase added =>
    cases draft
    obtain ⟨_, _, -, rfl⟩ := Draft.matchLine_ok added
    exact nomatch phase.symm.trans effect
  | effectLine draft₀ left phase added =>
    cases draft
    obtain ⟨rule, change, rfl⟩ := Draft.effectLine_ok added
    exact .inr ⟨_, draft₀, phase, patterned, rfl⟩
  | endMatch | repeatMatch | beginMatch =>
    cases draft
    cases effect
  | beginEffect =>
    cases draft
    cases patterned
  | endEffect _ _ _ finished | repeatEffect _ _ _ _ _ finished =>
    obtain ⟨-, rfl⟩ := finish_ok finished
    cases draft
  | inherit none =>
    rw [kept_inherit.1, none] at draft
    cases draft
  | inheritNothing | change | openPart | closePart | closeAtom | closeRuleset | openAtom
    | openRuleset | global | preload | default =>
    exact .inr ⟨d, draft, effect, patterned, rfl⟩

end Builder

/-- The rules that the lines of a script finish, in order. Those of rule sets count as well as
those of atoms, whatever becomes of them; copies that are inherited are not finished anew. -/
def finishedRules (texts : List (List Char)) : List Rule :=
  Builder.gather Builder.finished? {} 0 texts

/-- The finished rules, with the lines of their effect blocks. -/
def placedRules (texts : List (List Char)) : List (Nat × Rule) :=
  Builder.gather Builder.placed? {} 0 texts

variable {texts : List (List Char)} {b : Builder}

theorem finishedRules_eq (texts : List (List Char)) :
    finishedRules texts = (placedRules texts).map Prod.snd := by
  unfold finishedRules placedRules Builder.placed?
  generalize ({} : Builder) = b
  generalize (0 : Nat) = index
  induction texts generalizing b index with
  | nil => rfl
  | cons text rest ih =>
    simp only [Builder.gather]
    split
    · rename_i b' _
      rw [ih, List.map_append]
      cases Builder.finished? b b' <;> rfl
    · rfl

theorem finishedRules_concat {b₀ : Builder} {line : List Char}
    (run : Builder.lines {} 0 texts = .ok b₀)
    (accepted : b₀.line (0 + texts.length) line = .ok b) :
    finishedRules (texts ++ [line]) =
      finishedRules texts ++ (Builder.finished? b₀ b).toList :=
  Builder.gather_concat run accepted

/-- Every rule that the builder knows has the effect block of a finished rule. -/
theorem exists_finished (h : Builder.lines {} 0 texts = .ok b) :
    Finished (fun _ => True) (fun rule => ∃ other ∈ finishedRules texts,
      rule.effect = other.effect ∧ rule.steps = other.steps) b := by
  induction texts using List.reverseRecOn generalizing b with
  | nil =>
    cases h
    exact .start
  | append_singleton texts line ih =>
    obtain ⟨b₀, run, accepted⟩ := Builder.lines_append_ok.mp h
    rw [Builder.lines_singleton_ok] at accepted
    rw [finishedRules_concat run accepted]
    have before : Finished (fun _ => True) (fun rule => ∃ other ∈ finishedRules texts ++
        (Builder.finished? b₀ b).toList, rule.effect = other.effect ∧ rule.steps = other.steps)
        b₀ :=
      (ih run).mono fun rule ⟨other, member, same⟩ =>
        ⟨other, List.mem_append_left _ member, same⟩
    refine before.next ⟨fun _ _ _ _ => trivial, fun _ _ => trivial, fun _ _ _ => trivial,
      fun _ known => known⟩ (Builder.next_of_line accepted) (fun _ _ known => known) ?_
    intro rule ends finished
    have draft : ∃ d, b₀.draft = some d := by
      cases ends with
      | effect draft | repeated draft => exact ⟨_, draft⟩
    obtain ⟨d, draft⟩ := draft
    refine ⟨_, List.mem_append_right _ ?_, rfl, rfl⟩
    rw [(Builder.finished?_of_finish draft finished).1]
    exact List.mem_singleton_self _

/-- In an open effect block that has its pattern, no rule was finished since the pattern was
opened. -/
theorem finishedRules_take {d : Draft} (h : Builder.lines {} 0 texts = .ok b)
    (draft : b.draft = some d) (effect : d.phase = .effect) (patterned : d.patterned = true) :
    b.effectLine < texts.length ∧
      finishedRules (texts.take b.effectLine) = finishedRules texts := by
  induction texts using List.reverseRecOn generalizing b d with
  | nil =>
    cases h
    cases draft
  | append_singleton texts line ih =>
    obtain ⟨b₀, run, accepted⟩ := Builder.lines_append_ok.mp h
    rw [Builder.lines_singleton_ok] at accepted
    rw [finishedRules_concat run accepted, Builder.finished?_of_draft draft, Option.toList_none,
      List.append_nil, List.length_append, List.length_singleton]
    rcases (Builder.next_of_line accepted).patterned draft effect patterned with
      ⟨-, place⟩ | ⟨d₀, draft₀, effect₀, patterned₀, place⟩
    · rw [place, Nat.zero_add, List.take_left]
      exact ⟨by omega, rfl⟩
    · obtain ⟨before, same⟩ := ih run draft₀ effect₀ patterned₀
      rw [place, List.take_append_of_le_length before.le]
      exact ⟨by omega, same⟩

/-! ## What is noted -/

namespace Builder

/-- Notes a symbol with a line, once. -/
def note (references : List (Nat × String)) (entry : Nat × String) : List (Nat × String) :=
  if references.contains entry then references else references ++ [entry]

/-- The unbound symbols of rules, with the lines of their effect blocks. -/
def notes (placed : List (Nat × Rule)) : List (Nat × String) :=
  placed.flatMap fun (line, rule) => (unboundSymbols rule).map fun symbol => (line, symbol)

theorem references_refer (b : Builder) (rule : Rule) :
    (b.refer rule).references = (notes [(b.effectLine, rule)]).foldl note b.references := by
  simp only [notes, List.flatMap_cons, List.flatMap_nil, List.append_nil, List.foldl_map]
  rfl

/-- What is noted once is found where it was first. -/
theorem find?_foldl_note (p : Nat × String → Bool) (references entries : List (Nat × String)) :
    (entries.foldl note references).find? p = (references ++ entries).find? p := by
  induction entries generalizing references with
  | nil => rw [List.foldl_nil, List.append_nil]
  | cons entry rest ih =>
    rw [List.foldl_cons, ih, note]
    split
    · rename_i known
      rw [List.find?_append, List.find?_append, List.find?_cons]
      split
      · -- the entry counts, and so the one that is found stands before it
        rename_i holds
        have found : (references.find? p).isSome :=
          List.find?_isSome.mpr ⟨entry, List.contains_iff_mem.mp known, holds⟩
        obtain ⟨first, found⟩ := Option.isSome_iff_exists.mp found
        rw [found]
        rfl
      · rfl
    · rw [List.append_assoc, List.singleton_append]

/-- The symbols that are noted along a script are those of its finished rules. -/
theorem references_eq (h : lines {} 0 texts = .ok b) :
    b.references = (notes (placedRules texts)).foldl note [] := by
  induction texts using List.reverseRecOn generalizing b with
  | nil =>
    cases h
    rfl
  | append_singleton texts line ih =>
    obtain ⟨b₀, run, accepted⟩ := lines_append_ok.mp h
    rw [lines_singleton_ok] at accepted
    rw [placedRules, gather_concat run accepted, ← placedRules]
    rcases (next_of_line accepted).finished?_cases with
      ⟨rule, -, finished, noted⟩ | ⟨unfinished, kept⟩
    · rw [noted, references_refer, ih run, placed?, finished, ← List.foldl_append]
      simp only [notes, List.flatMap_append]
      rfl
    · rw [kept, ih run, placed?, unfinished, Option.map_none, Option.toList_none, List.append_nil]

theorem references_find? (h : lines {} 0 texts = .ok b) (p : Nat × String → Bool) :
    b.references.find? p = (notes (placedRules texts)).find? p := by
  rw [references_eq h, find?_foldl_note, List.nil_append]

end Builder

/-! ## The first symbol that nothing stands for -/

/-- The rules before a rule place only symbols that have a meaning, and a symbol is the first
one without a meaning that the rule itself places. -/
structure FirstUnresolved (atoms : Array AtomType) (earlier : List Rule) (rule : Rule)
    (symbol : String) : Prop where
  earlier : ∀ other ∈ earlier, ∀ name, .place name ∈ other.effect → other.Resolves atoms name
  symbols : ∃ front back, rule.effect.toList = front ++ .place symbol :: back ∧
    ∀ name, .place name ∈ front → rule.Resolves atoms name
  unresolved : ¬rule.Resolves atoms symbol

/-- The effect of a rule is written below the line with an index: that line opens the pattern of
an effect block, some rules were finished before, and the rows of the pattern follow. -/
structure PatternAt (texts : List (List Char)) (place : Nat) (earlier : List Rule)
    (rule : Rule) : Prop where
  keyword : texts[place]? = some "pattern".toList
  opened : ∃ b d, Builder.lines {} 0 (texts.take place) = .ok b ∧ b.draft = some d ∧
    d.phase = .effect
  rows : rule.effect.toList = ((texts.drop (place + 1)).take rule.height.toNat).flatMap
    fun row => (Text.words row).map EffectSymbol.ofToken
  earlier : finishedRules (texts.take place) = earlier

theorem resolves_of_placeable {world : World} {rule : Rule} {symbol : String}
    (known : (world.placeable? symbol).isNone = false) : rule.Resolves world.atoms symbol := by
  refine .inr (World.placeable?_isSome.mp ?_)
  rw [← Option.not_isNone, known]
  rfl

/-- The first unbound symbol of a rule with a property stands behind symbols that are bound or
do not have it. -/
theorem exists_of_find?_unboundSymbols {rule : Rule} {q : String → Bool} {symbol : String}
    (h : (Builder.unboundSymbols rule).find? q = some symbol) :
    symbol ∉ rule.boundSymbols ∧ q symbol = true ∧
      ∃ front back, rule.effect.toList = front ++ .place symbol :: back ∧
        ∀ name, .place name ∈ front → name ∈ rule.boundSymbols ∨ q name = false := by
  have member := Builder.mem_unboundSymbols.mp (List.mem_of_find?_eq_some h)
  refine ⟨member.2, List.find?_some h, ?_⟩
  unfold Builder.unboundSymbols at h
  rw [List.find?_filterMap] at h
  obtain ⟨entry, first, placed⟩ := Option.bind_eq_some_iff.mp h
  obtain ⟨-, front, back, parts, before⟩ := List.find?_eq_some_iff_append.mp first
  have same : entry = .place symbol := by
    cases entry with
    | place name =>
      dsimp only at placed
      split at placed
      · cases placed
      · cases placed
        rfl
    | keep | anchor | empty => cases placed
  refine ⟨front, back, same ▸ parts, ?_⟩
  intro name among
  have fails := before _ among
  dsimp only at fails
  split at fails
  · rename_i bound
    exact .inl (List.contains_iff_mem.mp bound)
  · exact .inr (by simpa using fails)

/-- The symbol that is found first among those that are noted is the first one in the finished
rules that has no meaning. -/
theorem exists_firstUnresolved {world : World} {line : Nat} {symbol : String}
    (h : (Builder.notes (placedRules texts)).find?
      (fun (_, symbol) => (world.placeable? symbol).isNone) = some (line, symbol)) :
    ∃ earlier rule later, placedRules texts = earlier ++ (line, rule) :: later ∧
      FirstUnresolved world.atoms (earlier.map Prod.snd) rule symbol := by
  unfold Builder.notes at h
  rw [List.find?_flatMap] at h
  obtain ⟨earlier, ⟨line', rule⟩, later, same, here, before⟩ := List.findSome?_eq_some_iff.mp h
  rw [List.find?_map] at here
  obtain ⟨_, found, pair⟩ := Option.map_eq_some_iff.mp here
  cases pair
  obtain ⟨unbound, unknown, front, back, parts, resolved⟩ := exists_of_find?_unboundSymbols found
  refine ⟨earlier, rule, later, same, ?_, ⟨front, back, parts, ?_⟩, ?_⟩
  · rintro other member name placed
    obtain ⟨⟨line', rule'⟩, among, rfl⟩ := List.mem_map.mp member
    by_cases bound : name ∈ rule'.boundSymbols
    · exact .inl bound
    · have allKnown := before _ among
      rw [List.find?_map, Option.map_eq_none_iff, List.find?_eq_none] at allKnown
      have known := allKnown name (Builder.mem_unboundSymbols.mpr ⟨placed, bound⟩)
      exact resolves_of_placeable (Bool.eq_false_iff.mpr known)
  · intro name placed
    rcases resolved name placed with bound | known
    · exact .inl bound
    · exact resolves_of_placeable known
  · rintro (bound | named)
    · exact unbound bound
    · have known := World.placeable?_isSome.mpr named
      dsimp only [Function.comp] at unknown
      rw [Option.isNone_iff_eq_none] at unknown
      rw [unknown] at known
      cases known

/-- The complete effect of a draft is written below the line of its pattern. -/
theorem patternAt_of_draft {before : List (List Char)} {b : Builder} {d : Draft}
    (run : Builder.lines {} 0 before = .ok b) (draft : b.draft = some d)
    (rows : d.rowsLeft = 0) (effect : d.phase = .effect) (patterned : d.patterned = true)
    (after : List (List Char)) :
    PatternAt (before ++ after) b.effectLine (finishedRules before) d.rule := by
  obtain ⟨lines, rest, stand, count, -, length⟩ := rows_of_draft run draft effect patterned
  have unfinished := (finishedRules_take run draft effect patterned).2
  obtain ⟨front, b₀, d₀, rfl, run₀, draft₀, effect₀, -, -⟩ := stand.opened
  have place : b.effectLine = front.length := by
    simp only [List.length_append, List.length_cons] at length
    omega
  have height : lines.length = d.rule.height.toNat := by omega
  rw [place] at unfinished ⊢
  rw [List.append_assoc, List.cons_append]
  refine ⟨?_, ⟨b₀, d₀, ?_, draft₀, effect₀⟩, ?_, ?_⟩
  · rw [List.getElem?_append_right le_rfl, Nat.sub_self]
    rfl
  · rw [List.take_left]
    exact run₀
  · rw [List.drop_length_add_append, List.append_assoc, List.drop_one, List.tail_cons,
      ← height, List.take_left]
    exact stand.effect
  · rw [List.take_left] at unfinished ⊢
    exact unfinished

/-- A rule with a symbol that no rule before it leaves without a meaning has it from an effect
block of its own, and the line that is noted is that of the pattern. -/
theorem patternAt_of_placed {atoms : Array AtomType} {earlier later : List (Nat × Rule)}
    {line : Nat} {rule : Rule} {symbol : String}
    (h : placedRules texts = earlier ++ (line, rule) :: later)
    (first : FirstUnresolved atoms (earlier.map Prod.snd) rule symbol) :
    PatternAt texts line (earlier.map Prod.snd) rule := by
  obtain ⟨before, text, after, b₁, b₂, rfl, run, accepted, seen, same⟩ :=
    Builder.exists_line_of_gather h
  have next := Builder.next_of_line accepted
  obtain ⟨front, back, parts, -⟩ := first.symbols
  have placed : .place symbol ∈ rule.effect := by
    rw [← Array.mem_toList_iff, parts]
    simp
  unfold Builder.placed? at seen
  obtain ⟨_, finished, pair⟩ := Option.map_eq_some_iff.mp seen
  cases pair
  rcases next.finished?_cases with ⟨rule', ends, finished', -⟩ | ⟨unfinished, -⟩
  swap
  · rw [unfinished] at finished
    cases finished
  rw [finished'] at finished
  cases finished
  cases ends with
  | repeated draft rows between last form complete =>
    rename_i d previous
    obtain ⟨other, member, effect, steps⟩ := (exists_finished run).previous _ last
    rw [finishedRules_eq, placedRules, same] at member
    have placed : .place symbol ∈ previous.effect := placed
    have unresolved : ¬previous.Resolves atoms symbol := first.unresolved
    rw [effect] at placed
    refine absurd (first.earlier other member symbol placed) ?_
    rwa [Rule.Resolves, Rule.boundSymbols, ← steps]
  | effect draft rows effect complete =>
    rename_i d
    have formed := wellFormedClosure.draft_of_lines run draft
    have patterned : d.patterned = true := by
      by_contra unpatterned
      have none := (formed.unwritten (.inr (by simpa using unpatterned))).2
      have placed : .place symbol ∈ d.rule.effect := placed
      rw [none] at placed
      simp at placed
    -- finishing the rule changes nothing but its number
    obtain ⟨keyword, opened, written, placedBefore⟩ :=
      patternAt_of_draft run draft rows effect patterned (text :: after)
    have finished : finishedRules before = earlier.map Prod.snd := by
      rw [finishedRules_eq, placedRules, same]
    exact ⟨keyword, opened, written, placedBefore.trans finished⟩

/-! ## Scripts with unknown symbols -/

section Compile

variable {source : List Char} {kept : List Line} {world : World}
  (read : lines source = .ok kept) (run : Builder.lines {} 0 (kept.map (·.text)) = .ok b)
  (closed : b.unclosed? = none)
  (built : World.build? b.atoms b.defaults b.preload = some world)

include read run closed built

/-- The end of a script whose lines are accepted. -/
theorem compile_of_lines : compile source =
    match (Builder.notes (placedRules (kept.map (·.text)))).find?
      (fun (_, symbol) => (world.placeable? symbol).isNone) with
    | some (place, symbol) => .error (.onLine ((kept[place]?.map (·.number)).getD 0)
        (.unknownEffectSymbol symbol))
    | none => .ok ⟨world, b.warnings ++ unknownMembers world⟩ := by
  have lines : compileLines (kept.map (·.text)) = b.build := by
    rw [compileLines, run]
    dsimp only
    rw [closed]
  rw [compile, read]
  dsimp only
  rw [lines, Builder.build, built]
  dsimp only
  rw [Builder.references_find? run]
  generalize (Builder.notes (placedRules (kept.map (·.text)))).find? _ = found
  cases found <;> rfl

theorem compile_resolved
    (found : (Builder.notes (placedRules (kept.map (·.text)))).find?
      (fun (_, symbol) => (world.placeable? symbol).isNone) = none) :
    (∃ compiled, compile source = .ok compiled) ∧
      ∀ rule ∈ finishedRules (kept.map (·.text)), ∀ symbol, .place symbol ∈ rule.effect →
        rule.Resolves world.atoms symbol := by
  refine ⟨⟨_, by rw [compile_of_lines read run closed built, found]⟩, ?_⟩
  intro rule finished symbol placed
  by_cases bound : symbol ∈ rule.boundSymbols
  · exact .inl bound
  rw [finishedRules_eq] at finished
  obtain ⟨⟨place, rule⟩, member, rfl⟩ := List.mem_map.mp finished
  have noted : (place, symbol) ∈ Builder.notes (placedRules (kept.map (·.text))) :=
    List.mem_flatMap.mpr ⟨_, member, List.mem_map_of_mem
      (Builder.mem_unboundSymbols.mpr ⟨placed, bound⟩)⟩
  have known : (world.placeable? symbol).isNone = false :=
    Bool.eq_false_iff.mpr (List.find?_eq_none.mp found _ noted)
  exact resolves_of_placeable known

theorem compile_unresolved {place : Nat} {symbol : String}
    (found : (Builder.notes (placedRules (kept.map (·.text)))).find?
      (fun (_, symbol) => (world.placeable? symbol).isNone) = some (place, symbol)) :
    ∃ earlier rule later line, finishedRules (kept.map (·.text)) = earlier ++ rule :: later ∧
      FirstUnresolved world.atoms earlier rule symbol ∧
      PatternAt (kept.map (·.text)) place earlier rule ∧ kept[place]? = some line ∧
      compile source = .error (.onLine line.number (.unknownEffectSymbol symbol)) := by
  obtain ⟨earlier, rule, later, same, first⟩ := exists_firstUnresolved found
  have written := patternAt_of_placed same first
  have here := written.keyword
  rw [List.getElem?_map] at here
  obtain ⟨line, atPlace, -⟩ := Option.map_eq_some_iff.mp here
  refine ⟨_, rule, later.map Prod.snd, line, ?_, first, written, atPlace, ?_⟩
  · rw [finishedRules_eq, same, List.map_append, List.map_cons]
  · rw [compile_of_lines read run closed built, found]
    dsimp only
    rw [atPlace]
    rfl

end Compile

/-- A script with atoms whose lines are accepted and that closes its blocks compiles if and only
if every symbol that a finished rule places is bound by the rule or stands for an atom.
Otherwise the error is at the line of the pattern with the first symbol that has no meaning. -/
theorem unknown_symbols_rejected {source : List Char} {kept : List Line} {b : Builder}
    (read : lines source = .ok kept)
    (run : Builder.lines {} 0 (kept.map (·.text)) = .ok b)
    (closed : b.unclosed? = none) (declared : b.atoms ≠ #[]) :
    ((∃ compiled, compile source = .ok compiled) ↔
        ∀ rule ∈ finishedRules (kept.map (·.text)), ∀ symbol, .place symbol ∈ rule.effect →
          rule.Resolves b.atoms symbol) ∧
      ((¬∃ compiled, compile source = .ok compiled) →
        ∃ earlier rule later symbol place line,
          finishedRules (kept.map (·.text)) = earlier ++ rule :: later ∧
          FirstUnresolved b.atoms earlier rule symbol ∧
          PatternAt (kept.map (·.text)) place earlier rule ∧
          kept[place]? = some line ∧
          compile source = .error (.onLine line.number (.unknownEffectSymbol symbol))) := by
  have filled : 0 < b.atoms.size := Array.size_pos_iff.mpr declared
  let world : World := ⟨b.atoms, b.defaults, b.preload, filled⟩
  have built : World.build? b.atoms b.defaults b.preload = some world := dif_pos filled
  cases found : (Builder.notes (placedRules (kept.map (·.text)))).find?
      (fun (_, symbol) => (world.placeable? symbol).isNone) with
  | none =>
    obtain ⟨succeeds, resolved⟩ := compile_resolved read run closed built found
    exact ⟨⟨fun _ => resolved, fun _ => succeeds⟩, fun fails => absurd succeeds fails⟩
  | some entry =>
    obtain ⟨place, symbol⟩ := entry
    obtain ⟨earlier, rule, later, line, finished, first, written, atPlace, error⟩ :=
      compile_unresolved read run closed built found
    refine ⟨⟨?_, fun all => ?_⟩, fun _ =>
      ⟨earlier, rule, later, symbol, place, line, finished, first, written, atPlace, error⟩⟩
    · rintro ⟨compiled, succeeds⟩
      rw [error] at succeeds
      cases succeeds
    · obtain ⟨front, back, parts, -⟩ := first.symbols
      refine absurd (all rule ?_ symbol ?_) first.unresolved
      · rw [finished]
        simp
      · rw [← Array.mem_toList_iff, parts]
        simp

/-- The lines of a script with a rule set that is declared twice and never inherited, the first
time with an effect, used twice, that places something that is no atom. -/
def strayedLines : List String :=
  ["atom Empty \x7b", "\x7d",
   "ruleset Heap \x7b",
   "match (0, 0, 1, 2) \x7b", "\x7d",
   "-> \x7b", "def under = (0, 1)", "pattern", "under", "Ghost", "\x7d",
   "match (0, 0, 1, 2) \x7b", "\x7d",
   "repeat effect",
   "\x7d",
   "ruleset Heap \x7b", "\x7d"]

def strayed : List Char := strayedLines.flatMap fun line => line.toList ++ ['\n']

theorem strayed_accepted : ∃ kept b, lines strayed = .ok kept ∧
    Builder.lines {} 0 (kept.map (·.text)) = .ok b ∧ b.unclosed? = none ∧ b.atoms ≠ #[] := by
  have read : (lines strayed).toOption.isSome = true := by decide +kernel
  obtain ⟨kept, read⟩ := Option.isSome_iff_exists.mp read
  have accepted : ∀ kept, (lines strayed).toOption = some kept →
      (Builder.lines {} 0 (kept.map (·.text))).toOption.isSome = true ∧
      ∀ b, (Builder.lines {} 0 (kept.map (·.text))).toOption = some b →
        b.unclosed? = none ∧ b.atoms.isEmpty = false := by
    decide +kernel
  obtain ⟨reached, closed⟩ := accepted kept read
  obtain ⟨b, run⟩ := Option.isSome_iff_exists.mp reached
  exact ⟨kept, b, eq_ok_of_toOption read, eq_ok_of_toOption run, (closed b run).1,
    Array.isEmpty_eq_false_iff.mp (closed b run).2⟩

theorem strayed_fails :
    compile strayed = .error (.onLine 8 (.unknownEffectSymbol "Ghost")) := by
  have fails : (match compile strayed with
      | .error e => decide (e = .onLine 8 (.unknownEffectSymbol "Ghost"))
      | .ok _ => false) = true := by
    decide +kernel
  split at fails
  · rename_i e found
    rw [found, of_decide_eq_true fails]
  · cases fails

theorem strayed_rejected : ∃ kept earlier rule later place line,
    lines strayed = .ok kept ∧
    finishedRules (kept.map (·.text)) = earlier ++ rule :: later ∧
    PatternAt (kept.map (·.text)) place earlier rule ∧ kept[place]? = some line ∧
    line.number = 8 := by
  obtain ⟨kept, b, read, run, closed, declared⟩ := strayed_accepted
  have fails : ¬∃ compiled, compile strayed = .ok compiled := by
    rintro ⟨compiled, succeeds⟩
    rw [strayed_fails] at succeeds
    cases succeeds
  obtain ⟨earlier, rule, later, symbol, place, line, finished, -, written, found, error⟩ :=
    (unknown_symbols_rejected read run closed declared).2 fails
  rw [strayed_fails] at error
  have number : 8 = line.number := by
    simp only [Except.error.injEq, Error.onLine.injEq] at error
    exact error.1
  exact ⟨kept, earlier, rule, later, place, line, read, finished, written, found, number.symm⟩

end Script

end FallingSand
