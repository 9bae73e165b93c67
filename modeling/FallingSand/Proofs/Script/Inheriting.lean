import FallingSand.Proofs.Script.BlockRules
import FallingSand.Proofs.Script.Recompiling

/-!
# Inheriting a rule set is writing its lines

A rule set keeps the rules that its lines make, and `inherit` copies them; the same lines
written in place are read again. Both leave the same behind. While the lines are read in
place the builder follows the one that read them in the rule set (`Inlined`): it has pushed
a copy of each rule that was finished there, and has the same rule open.

With a probability the inherited rules differ in it, and so do the rules that take over the
probability of one of them later.
-/

namespace FallingSand.Script

/-- Lines that are made only of blocks of rules and of repeated blocks. -/
inductive RuleLines : List (List Char) → Prop
  | nil : RuleLines []
  | matching (M : Block "match") {rest : List (List Char)} : RuleLines rest →
      RuleLines (M.texts ++ rest)
  | effect (E : Block "->") {rest : List (List Char)} : RuleLines rest →
      RuleLines (E.texts ++ rest)
  | repetition {text : List Char} {kind : Form.Repeated} {rest : List (List Char)} :
      Form.repetition.read text = .ok kind → RuleLines rest → RuleLines (text :: rest)

namespace Builder

variable {b b' base r u : Builder} {index index' : Nat} {name : String} {rule : Rule}
  {rules : Array Rule} {text : List Char} {texts : List (List Char)} {p : Float}

/-! ## Rule sets that stay -/

/-- Whether a rule set of a name is open. -/
def insideOf (name : String) (b : Builder) : Bool :=
  match b.scope with
  | .ruleset openName _ => openName == name
  | _ => false

/-- Whether some lines open a rule set of a name. -/
def opens (name : String) (b : Builder) (index : Nat) : List (List Char) → Bool
  | [] => false
  | text :: rest =>
    match b.line index text with
    | .ok b' => b'.insideOf name || b'.opens name (index + 1) rest
    | .error _ => false

theorem rulesets_pushAll (rules : List Rule) (copy : Rule → Rule) :
    (rules.foldl (fun b rule => b.pushNew (copy rule)) b).rulesets = b.rulesets := by
  induction rules generalizing b with
  | nil => rfl
  | cons rule rest ih => exact ih

/-- A rule set changes only where it is closed. -/
theorem Next.get?_rulesets (h : b.Next index text b') (outside : b.insideOf name = false) :
    b'.rulesets.get? name = b.rulesets.get? name := by
  cases h with
  | endEffect draft rows phase finished | repeatEffect draft rows phase before form finished =>
    obtain ⟨-, rfl⟩ := finish_ok finished
    rfl
  | inherit draft found checked => rw [← Array.foldl_toList, rulesets_pushAll]
  | closeRuleset draft scope =>
    unfold insideOf at outside
    rw [scope] at outside
    rw [Table.get?_insert, if_neg (by simpa using outside)]
  | row | pattern | matchLine | effectLine | endMatch | beginMatch | beginEffect | repeatMatch
    | inheritNothing | change | openPart | closePart | closeAtom | openAtom | openRuleset | global
    | preload | default => rfl

theorem get?_rulesets_of_lines (h : b.lines index texts = .ok b')
    (outside : b.insideOf name = false) (apart : b.opens name index texts = false) :
    b'.rulesets.get? name = b.rulesets.get? name := by
  induction texts generalizing b index with
  | nil =>
    cases h
    rfl
  | cons text rest ih =>
    unfold lines at h
    unfold opens at apart
    cases read : b.line index text with
    | error problem =>
      rw [read] at h
      cases h
    | ok next =>
      rw [read] at h apart
      obtain ⟨outside', apart'⟩ := Bool.or_eq_false_iff.mp apart
      rw [ih h outside' apart', (next_of_line read).get?_rulesets outside]

/-! ## Lines of rules, read twice -/

/-- The copies of some rules. -/
def pushAll (b : Builder) (rules : List Rule) : Builder :=
  rules.foldl (fun b rule => b.pushNew rule) b

/-- The builder `u`, which stands in a section `update` and started as `base`, follows the
builder `r`, which stands in a rule set. -/
structure Inlined (name : String) (base r u : Builder) (rules : Array Rule) : Prop where
  scope : r.scope = .ruleset name rules
  previous : r.previous = rules.back?
  normal : ∀ rule ∈ rules, rule.always = false
  draft : ∀ d, r.draft = some d → ∃ rule, d = { rule } ∧ rule.always = false
  inline : ∃ effectLine references,
    u = { base.pushAll rules.toList with draft := r.draft, effectLine, references } ∧
      ∀ symbol, symbol ∈ references.map Prod.snd ↔ symbol ∈ base.symbols

theorem pushAll_push (rules : Array Rule) (rule : Rule) (id : Nat) :
    b.pushAll (rules.push { rule with id }).toList = (b.pushAll rules.toList).pushNew rule := by
  unfold pushAll
  rw [Array.toList_push, List.foldl_append]
  rfl

theorem place_pushAll (rules : List Rule) :
    (b.pushAll rules).inRuleset = b.inRuleset ∧ (b.pushAll rules).part? = b.part? := by
  induction rules generalizing b with
  | nil => exact ⟨rfl, rfl⟩
  | cons rule rest ih =>
    obtain ⟨first, second⟩ := ih (b := b.pushNew rule)
    exact ⟨first.trans (place_pushNew b rule).1, second.trans (place_pushNew b rule).2⟩

/-- The rule that was pushed last is the previous one, but for its number. -/
theorem previous_pushAll (last : rules.back? = some rule) :
    ∃ id, (b.pushAll rules.toList).previous = some { rule with id } := by
  obtain ⟨front, rfl⟩ := Array.back?_eq_some_iff.mp last
  have pushed := pushAll_push (b := b) front rule rule.id
  rw [pushed]
  exact ⟨_, rfl⟩

namespace Inlined

theorem start (scope : r.scope = .ruleset name #[]) (previous : r.previous = none)
    (closed : r.draft = none) (free : base.draft = none) : Inlined name base r base #[] where
  scope := scope
  previous := previous
  normal rule member := absurd member (Array.not_mem_empty rule)
  draft d found := by rw [closed] at found; cases found
  inline := by
    refine ⟨base.effectLine, base.references, ?_, fun _ => Iff.rfl⟩
    rw [closed, ← free]
    rfl

/-- The two stand where rules may stand, the one in a rule set and the other not. -/
theorem places (h : Inlined name base r u rules) (update : base.part? = some .update) :
    r.inRuleset = true ∧ r.AdmitsRules ∧ u.inRuleset = false ∧ u.AdmitsRules := by
  have ruleset : r.inRuleset = true := by rw [Builder.inRuleset, h.scope]
  obtain ⟨effectLine, references, rfl, -⟩ := h.inline
  obtain ⟨place, part⟩ := place_pushAll (b := base) rules.toList
  have atom : base.inRuleset = false := by
    unfold part? at update
    unfold Builder.inRuleset
    cases scope : base.scope with
    | atom => rfl
    | file => rfl
    | ruleset => rw [scope] at update; cases update
  exact ⟨ruleset, .inl ruleset, place.trans atom, .inr (part.trans update)⟩

theorem draft_eq (h : Inlined name base r u rules) : u.draft = r.draft := by
  obtain ⟨effectLine, references, rfl, -⟩ := h.inline
  rfl

/-- What was finished last is the same, but for its number. -/
theorem previous_eq (h : Inlined name base r u rules) {last : Rule}
    (before : r.previous = some last) :
    ∃ id, u.previous = some { last with id } := by
  obtain ⟨effectLine, references, rfl, -⟩ := h.inline
  exact previous_pushAll (h.previous ▸ before)

theorem count (h : Inlined name base r u rules) : u.nextId - base.nextId = rules.size := by
  obtain ⟨effectLine, references, rfl, -⟩ := h.inline
  have given := nextId_inherit base rules.toList fun rule => rule
  show (base.pushAll rules.toList).nextId - base.nextId = rules.size
  rw [pushAll, given, Nat.add_sub_cancel_left]
  exact Array.length_toList

/-- A rule is opened. -/
theorem setDraft (h : Inlined name base r u rules) (normal : rule.always = false)
    (first second : Nat) :
    Inlined name base { r with draft := some { rule }, effectLine := first }
      { u with draft := some { rule }, effectLine := second } rules where
  scope := h.scope
  previous := h.previous
  normal := h.normal
  draft := by
    rintro d ⟨⟩
    exact ⟨rule, rfl, normal⟩
  inline := by
    obtain ⟨effectLine, references, rfl, symbols⟩ := h.inline
    exact ⟨second, references, rfl, symbols⟩

/-- A rule is finished. -/
theorem push (h : Inlined name base r u rules) (normal : rule.always = false)
    (noted : unboundSymbols rule ⊆ base.symbols) (first second : Nat) :
    Inlined name base ((refer { r with draft := none, effectLine := first } rule).pushNew rule)
      ((refer { u with draft := none, effectLine := second } rule).pushNew rule)
      (rules.push { rule with id := r.nextId }) where
  scope := by
    unfold pushNew Builder.push refer
    rw [h.scope]
  previous := by
    rw [Array.back?_push]
    rfl
  normal other member := by
    rcases Array.mem_push.mp member with old | rfl
    · exact h.normal other old
    · exact normal
  draft := nofun
  inline := by
    obtain ⟨effectLine, references, rfl, symbols⟩ := h.inline
    let u : Builder :=
      { base.pushAll rules.toList with draft := none, effectLine := second, references }
    refine ⟨second, (u.refer rule).references, ?_, fun symbol => ?_⟩
    · rw [pushAll_push]
      rfl
    · show symbol ∈ (u.refer rule).symbols ↔ symbol ∈ base.symbols
      rw [mem_symbols_refer]
      constructor
      · rintro (old | new)
        · exact (symbols symbol).mp old
        · exact noted new
      · exact fun old => .inl ((symbols symbol).mpr old)

theorem outside (h : Inlined name base r u rules) : r.Outside := by
  intro d found
  obtain ⟨rule, rfl, -⟩ := h.draft d found
  exact ⟨rfl, rfl⟩

/-- A match block is read where no rule is open. -/
theorem free_of_header (h : Inlined name base r u rules) (admits : r.AdmitsRules)
    (word : keyword text = "match") (run : r.line index text = .ok b') : r.draft = none := by
  rw [line_beginMatch admits h.outside word, Answers.beginMatch_eq] at run
  split at run
  · cases run
  · rename_i closed
    simpa using closed

/-- An effect block is read where a rule is open. -/
theorem open_of_header (h : Inlined name base r u rules) (admits : r.AdmitsRules)
    (word : keyword text = "->") (run : r.line index text = .ok b') :
    ∃ rule, r.draft = some { rule } ∧ rule.always = false := by
  rw [line_beginEffect admits h.outside word] at run
  unfold beginEffect at run
  obtain ⟨written, -, run⟩ := bind_eq_ok.mp run
  cases draft : r.draft with
  | none =>
    rw [draft] at run
    cases run
  | some d =>
    obtain ⟨rule, rfl, normal⟩ := h.draft d draft
    exact ⟨rule, rfl, normal⟩

theorem matchBlock (h : Inlined name base r u rules) (update : base.part? = some .update)
    (M : Block "match") (index' : Nat) (run : r.lines index M.texts = .ok b') :
    ∃ u', u.lines index' M.texts = .ok u' ∧ Inlined name base b' u' rules := by
  obtain ⟨ruleset, admits, atom, admits'⟩ := h.places update
  have closed : r.draft = none := by
    have header := run
    rw [Block.texts, lines_cons] at header
    obtain ⟨first, read, -⟩ := bind_eq_ok.mp header
    exact h.free_of_header admits M.named (mapError_eq_ok.mp read)
  obtain ⟨rule, matched, l, rfl⟩ := (lines_matchBlock closed admits M _).exists_left run
  rw [ruleset] at matched
  obtain ⟨u', run', l', rfl⟩ := (lines_matchBlock (h.draft_eq.trans closed) admits' M
    index').exists_right (Block.readMatch_of_ruleset matched)
  have normal : rule.always = false := by
    rw [← Block.rematched_of_readMatch matched]
    rfl
  exact ⟨_, run', h.setDraft normal l l'⟩

theorem effectBlock (h : Inlined name base r u rules) (update : base.part? = some .update)
    (E : Block "->") (index' : Nat) (run : r.lines index E.texts = .ok b')
    (noted : b'.symbols ⊆ base.symbols) :
    ∃ u' rules', u.lines index' E.texts = .ok u' ∧ Inlined name base b' u' rules' := by
  obtain ⟨ruleset, admits, atom, admits'⟩ := h.places update
  obtain ⟨rule, draft, normal⟩ : ∃ rule, r.draft = some { rule } ∧ rule.always = false := by
    have header := run
    rw [Block.texts, lines_cons] at header
    obtain ⟨first, read, -⟩ := bind_eq_ok.mp header
    exact h.open_of_header admits E.named (mapError_eq_ok.mp read)
  obtain ⟨finished, effect, l, rfl⟩ := (lines_effectBlock draft admits E _).exists_left run
  rw [ruleset] at effect
  obtain ⟨u', run', l', rfl⟩ := (lines_effectBlock (h.draft_eq.trans draft) admits' E
    index').exists_right (Block.readEffect_of_ruleset effect)
  refine ⟨_, _, run', h.push (Block.always_readEffect normal effect) ?_ l l'⟩
  exact fun symbol member => noted (mem_symbols_refer.mpr (.inr member))

theorem repeated (h : Inlined name base r u rules) (update : base.part? = some .update)
    {kind : Form.Repeated} (read : Form.repetition.read text = .ok kind) (index' : Nat)
    (run : r.line index text = .ok b') (noted : b'.symbols ⊆ base.symbols) :
    ∃ u' rules', u.line index' text = .ok u' ∧ Inlined name base b' u' rules' := by
  obtain ⟨-, admits, -, admits'⟩ := h.places update
  have block : r.repeatBlock text = .ok b' := by
    rwa [line_repeatBlock admits h.outside (keyword_of_repetition read)] at run
  obtain ⟨previous, before, matching, effect⟩ := repeatBlock_ok read block
  obtain ⟨id, before'⟩ := h.previous_eq before
  cases kind with
  | matching =>
    have closed := matching rfl
    rw [line_repeatMatch closed admits before read] at run
    cases run
    refine ⟨_, rules, line_repeatMatch (h.draft_eq.trans closed) admits' before' read, ?_⟩
    have blank : (rematched previous).always = false := rfl
    exact h.setDraft blank r.effectLine u.effectLine
  | effect =>
    obtain ⟨d, draft⟩ := Option.isSome_iff_exists.mp (effect rfl)
    obtain ⟨rule, rfl, -⟩ := h.draft d draft
    have normal : previous.always = false :=
      h.normal previous (Array.mem_of_back? (h.previous ▸ before))
    have normal' : (reeffected rule previous).always = false := normal
    have again := line_repeatEffect (h.draft_eq.trans draft) admits' before' read index'
    rw [line_repeatEffect draft admits before read] at run
    change (Draft.checkEffect (reeffected rule previous)).map _ = _ at run
    change _ = (Draft.checkEffect (reeffected rule previous)).map _ at again
    cases checked : Draft.checkEffect (reeffected rule previous) with
    | error problem =>
      rw [checked] at run
      cases run
    | ok finished =>
      obtain rfl := Block.checkEffect_ok checked
      rw [checked] at run again
      cases run
      refine ⟨_, _, again, h.push normal' ?_
        r.effectLine u.effectLine⟩
      exact fun symbol member => noted (mem_symbols_refer.mpr (.inr member))

end Inlined

theorem symbols_subset_of_lines (h : b.lines index texts = .ok b') : b.symbols ⊆ b'.symbols :=
  invariant_of_lines (I := fun x => b.symbols ⊆ x.symbols)
    (fun next noted => List.Subset.trans noted next.symbols_subset) (List.Subset.refl _) h

/-- Lines of rules that have been read in a rule set are read in place as well, and the
builder goes on following. -/
theorem Inlined.lines (body : RuleLines texts) (h : Inlined name base r u rules)
    (update : base.part? = some .update) (index' : Nat) (run : r.lines index texts = .ok b')
    (noted : b'.symbols ⊆ base.symbols) :
    ∃ u' rules', u.lines index' texts = .ok u' ∧ Inlined name base b' u' rules' := by
  induction body generalizing r u rules index index' with
  | nil =>
    cases run
    exact ⟨u, rules, rfl, h⟩
  | @matching M rest body ih =>
    rw [lines_append] at run
    obtain ⟨next, first, run⟩ := bind_eq_ok.mp run
    obtain ⟨u₁, first', h₁⟩ := h.matchBlock update M index' first
    obtain ⟨u₂, rules₂, run', h₂⟩ := ih h₁ _ run
    refine ⟨u₂, rules₂, ?_, h₂⟩
    rw [lines_append, first']
    exact run'
  | @effect E rest body ih =>
    rw [lines_append] at run
    obtain ⟨next, first, run⟩ := bind_eq_ok.mp run
    obtain ⟨u₁, rules₁, first', h₁⟩ := h.effectBlock update E index' first
      (List.Subset.trans (symbols_subset_of_lines run) noted)
    obtain ⟨u₂, rules₂, run', h₂⟩ := ih h₁ _ run
    refine ⟨u₂, rules₂, ?_, h₂⟩
    rw [lines_append, first']
    exact run'
  | @repetition text kind rest read body ih =>
    rw [lines_cons] at run
    obtain ⟨next, first, run⟩ := bind_eq_ok.mp run
    obtain ⟨u₁, rules₁, first', h₁⟩ := h.repeated update read index'
      (mapError_eq_ok.mp first) (List.Subset.trans (symbols_subset_of_lines run) noted)
    obtain ⟨u₂, rules₂, run', h₂⟩ := ih h₁ _ run
    refine ⟨u₂, rules₂, ?_, h₂⟩
    rw [lines_cons, first']
    exact run'

/-! ## Rule sets, opened, closed and inherited -/

theorem line_openRuleset (free : b.draft = none) (file : b.scope = .file)
    (read : Form.rulesetStart.read text = .ok name) :
    b.line index text = .ok { b with scope := .ruleset name #[], previous := none } := by
  have word := keyword_of_rulesetStart read
  rw [line_of_word (outside_of_free free) word (by decide)]
  unfold outerLine
  rw [word]
  show b.openRuleset text = _
  unfold openRuleset inFile
  rw [file, read, free]
  rfl

/-- A rule set is closed where no rule is open. -/
theorem Inlined.close (h : Inlined name base r u rules) (run : r.line index closing = .ok b') :
    r.draft = none ∧ b' = { r with rulesets := r.rulesets.insert name rules, scope := .file } := by
  cases draft : r.draft with
  | some d =>
    obtain ⟨rule, rfl, -⟩ := h.draft d draft
    rw [line_closing draft] at run
    obtain ⟨-, -, run⟩ := bind_eq_ok.mp run
    unfold Builder.close at run
    rw [draft] at run
    cases run
  | none =>
    unfold line closing Builder.close at run
    simp only [draft, h.scope, if_true] at run
    cases run
    exact ⟨rfl, by rw [← draft]⟩

theorem line_inherit (free : b.draft = none) (update : b.part? = some .update)
    (found : b.rulesets.get? name = some rules) {flags : List (String × List Char)}
    (read : Form.inherit.read text = .ok (name, flags)) {probability : Option Float}
    (flagged : flaggedProbability flags = .ok probability) (index : Nat) :
    b.line index text = .ok
      (rules.toList.foldl (fun b rule => b.pushNew (inheritedCopy probability rule)) b) := by
  have known : b.rulesNamed? name = some rules := by
    unfold part? at update
    unfold rulesNamed?
    cases scope : b.scope with
    | file | ruleset => rw [scope] at update; cases update
    | atom atom part =>
      dsimp only
      rw [found, Option.some_or]
  rw [line_inheritRules (.inr update) (outside_of_free free) (keyword_of_inherit read),
    Retuned.inherit_eq, free, read]
  dsimp only [bind, Except.bind]
  rw [flagged]
  dsimp only
  rw [known]
  rfl

theorem numbersOf_true (n : Nat) (rules : List Rule) :
    numbersOf (fun _ => true) n rules = List.range' n rules.length := by
  induction rules generalizing n with
  | nil => rfl
  | cons rule rest ih =>
    rw [numbersOf, ih, List.length_cons, List.range'_succ]
    rfl

/-- Where the symbols were noted on the other side does not matter. -/
theorem Retuned.of_left {marked : List Nat} (h : Retuned marked p b b') (effectLine : Nat)
    (references : List (Nat × String))
    (same : ∀ symbol, symbol ∈ references.map Prod.snd ↔ symbol ∈ b.symbols) :
    Retuned marked p { b with effectLine, references } b' := by
  cases h with
  | intro marks tables symbols =>
    exact .intro (b := { b with effectLine, references }) marks tables fun symbol =>
      (symbols symbol).trans (same symbol).symm

/-- The numbers of the copies that a line inherits with a probability. -/
def copiesFrom (n count : Nat) (probability : Option Float) : List Nat :=
  if probability.isSome then List.range' n count else []

/-- Inheriting the rules of the rule set leaves behind what its lines have left, but for
the probabilities. -/
theorem Inlined.inherit (h : Inlined name base r u rules) (closed : r.draft = none)
    (free : base.draft = none) (counted : base.Counted) (probability : Option Float) :
    Retuned (copiesFrom base.nextId rules.size probability) (probability.getD 0) u
      (rules.toList.foldl (fun b rule => b.pushNew (inheritedCopy probability rule)) base) := by
  have copies : ∀ rule ∈ rules.toList, inheritedCopy probability rule =
      if probability.isSome then { rule with probability := probability.getD 0 } else rule := by
    intro rule member
    have normal := h.normal rule (Array.mem_toList_iff.mp member)
    obtain ⟨_, _, _, _, _, _, _, _, _, _, _, always, _⟩ := rule
    obtain rfl : always = false := normal
    cases probability <;> rfl
  have pushed : Retuned ([] ++ numbersOf (fun _ => probability.isSome) base.nextId rules.toList)
      (probability.getD 0) (base.pushAll rules.toList)
      (rules.toList.foldl (fun b rule => b.pushNew (inheritedCopy probability rule)) base) :=
    (Retuned.refl (probability.getD 0) base).pushAll counted _ copies
  have marked : numbersOf (fun _ => probability.isSome) base.nextId rules.toList =
      copiesFrom base.nextId rules.size probability := by
    unfold copiesFrom
    cases probability with
    | none => exact numbersOf_false _ _
    | some q => exact numbersOf_true _ _
  rw [List.nil_append, marked] at pushed
  obtain ⟨effectLine, references, rfl, symbols⟩ := h.inline
  have kept : (base.pushAll rules.toList).draft = base.draft ∧
      (base.pushAll rules.toList).references = base.references := by
    rw [pushAll, Array.foldl_toList]
    exact kept_inherit
  have alike := pushed.of_left effectLine references fun symbol => by
    unfold Builder.symbols
    rw [kept.2]
    exact symbols symbol
  rw [closed, ← free, ← kept.1]
  exact alike

end Builder

/-! ## Whole scripts -/

/-- Lines with a rule set among them. -/
def withRuleset (before : List (List Char)) (opening : List Char)
    (body between : List (List Char)) : List (List Char) :=
  before ++ opening :: (body ++ closing :: between)

/-- Lines with a rule set lead to a place in a section `update` where no rule is open. The
set is opened outside of every block, and none of the same name is opened between it and the
place. -/
structure Leads (name : String) (before : List (List Char)) (opening : List Char)
    (body between : List (List Char)) (b : Builder) : Prop where
  opens : Form.rulesetStart.read opening = .ok name
  whole : ∀ a, Builder.lines {} 0 before = .ok a → a.unclosed? = none
  apart : ∀ c, Builder.lines {} 0 (withRuleset before opening body []) = .ok c →
    c.opens name (withRuleset before opening body []).length between = false
  reached : Builder.lines {} 0 (withRuleset before opening body between) = .ok b
  free : b.draft = none
  update : b.part? = some .update

variable {name : String} {before body between rest : List (List Char)}
  {opening call : List Char} {b : Builder}

/-- At the place the rules of the set are known, and the lines of the set can be read as they
were there. -/
theorem Leads.body_again (leads : Leads name before opening body between b)
    (rules : RuleLines body) (index : Nat) : ∃ (r u : Builder) (list : Array Rule),
      b.lines index body = .ok u ∧ Builder.Inlined name b r u list ∧ r.draft = none ∧
        b.rulesets.get? name = some list := by
  have parts : withRuleset before opening body between =
      withRuleset before opening body [] ++ between := by simp [withRuleset]
  obtain ⟨c, set, later⟩ := Builder.lines_append_ok.mp (parts ▸ leads.reached)
  rw [Nat.zero_add] at later
  obtain ⟨a, start, run⟩ := Builder.lines_append_ok.mp set
  obtain ⟨free, file⟩ := Builder.scope_of_unclosed? (leads.whole a start)
  rw [Builder.lines_cons, Builder.line_openRuleset free file leads.opens] at run
  obtain ⟨r, first, ended⟩ := Builder.lines_append_ok.mp run
  have closed := Builder.lines_singleton_ok.mp ended
  have noted : r.symbols ⊆ b.symbols :=
    List.Subset.trans (Builder.next_of_line closed).symbols_subset
      (Builder.symbols_subset_of_lines later)
  have opened : Builder.Inlined name b { a with scope := .ruleset name #[], previous := none }
      b #[] := .start rfl rfl free leads.free
  obtain ⟨u, list, again, inlined⟩ :=
    opened.lines rules leads.update index first noted
  obtain ⟨noDraft, rfl⟩ := inlined.close closed
  refine ⟨r, u, list, again, inlined, noDraft, ?_⟩
  rw [Builder.get?_rulesets_of_lines later rfl (leads.apart _ set), Table.get?_insert, if_pos rfl]

/-- After a rule set has been inherited, and after its lines have been written in place, the
rest of a script is read in lockstep. -/
theorem Leads.inherit_parallel (leads : Leads name before opening body between b)
    (rules : RuleLines body) (rest : List (List Char)) {flags : List (String × List Char)}
    (read : Form.inherit.read call = .ok (name, flags)) {probability : Option Float}
    (flagged : Builder.flaggedProbability flags = .ok probability) :
    ∃ after, Builder.lines {} 0 (withRuleset before opening body between ++ body) = .ok after ∧
      Parallel
        (Builder.Retuned
          (after.heirsOf (withRuleset before opening body between ++ body).length
            (Builder.copiesFrom b.nextId (after.nextId - b.nextId) probability) rest)
          (probability.getD 0))
        (Builder.lines {} 0 (withRuleset before opening body between ++ (body ++ rest)))
        (Builder.lines {} 0 (withRuleset before opening body between ++ call :: rest)) := by
  have counted : b.Counted := Builder.Counted.lines Finished.start leads.reached
  obtain ⟨r, after, list, again, inlined, closed, found⟩ := leads.body_again rules
    (withRuleset before opening body between).length
  have inPlace : Builder.lines {} 0 (withRuleset before opening body between ++ body) =
      .ok after := (Builder.lines_of_reached leads.reached body).trans again
  have counted' : after.Counted := Builder.Counted.lines Finished.start inPlace
  refine ⟨after, inPlace, ?_⟩
  have alike := inlined.inherit closed leads.free counted probability
  rw [← inlined.count] at alike
  have called := Builder.line_inherit leads.free leads.update found read flagged
    (withRuleset before opening body between).length
  rw [← List.append_assoc, Builder.lines_of_reached inPlace,
    Builder.lines_of_reached leads.reached, Builder.lines_cons, called]
  exact Builder.lines_retuned alike counted' _ _ rest

/-- To inherit a rule set is to write its lines in place: where the one script compiles the
other does, and to the same world. With a probability the worlds differ in the probability of
the inherited rules, and of those that take it over from one of them later on: by
`repeat effect`, or by inheriting without a probability. -/
theorem inherit_inlines (leads : Leads name before opening body between b)
    (rules : RuleLines body) {flags : List (String × List Char)}
    (read : Form.inherit.read call = .ok (name, flags)) {inherited inline : List Char}
    (reads : Reads inherited (withRuleset before opening body between ++ call :: rest))
    (reads' : Reads inline (withRuleset before opening body between ++ (body ++ rest))) :
    (flags = [] → (compile inherited).toOption = (compile inline).toOption) ∧
    ∀ p, Builder.flaggedProbability flags = .ok (some p) → ∃ after,
      Builder.lines {} 0 (withRuleset before opening body between ++ body) = .ok after ∧
      (compile inherited).toOption = (compile inline).toOption.map
        (Compiled.retune
          (after.heirsOf (withRuleset before opening body between ++ body).length
            (List.range' b.nextId (after.nextId - b.nextId)) rest) p) := by
  refine ⟨?_, ?_⟩
  · rintro rfl
    obtain ⟨after, -, alike⟩ := leads.inherit_parallel rules rest read
      (rfl : Builder.flaggedProbability [] = .ok none)
    have same := compile_retuned reads' reads alike
    rw [Builder.copiesFrom, if_neg (by decide), Builder.heirsOf_nil] at same
    rw [same]
    cases (compile inline).toOption <;> simp
  · intro p flagged
    obtain ⟨after, inPlace, alike⟩ := leads.inherit_parallel rules rest read flagged
    exact ⟨after, inPlace, compile_retuned reads' reads alike⟩

/-! ## A grain that inherits how to sink -/

/-- A rule without a probability of its own. -/
def sinkBody : List (List Char) :=
  ["match (0, 0, 1, 2) \x7b".toList, closing, "-> \x7b".toList, "shift(0, 1)".toList, closing]

def sinkOpening : List Char := "ruleset Sink \x7b".toList

/-- The beginning of an atom with rules, after the rule set. -/
def grainOpening : List (List Char) := ["atom Grain \x7b".toList, "section update \x7b".toList]

/-- A match block whose rule has the effect of the rule before it, and the end of the atom. -/
def grainRepeats : List (List Char) :=
  ["match (0, 0, 1, 1) \x7b".toList, closing, "repeat effect".toList, closing, closing]

theorem sinkBody_ruleLines : RuleLines sinkBody := by
  let M : Block "match" := ⟨"match (0, 0, 1, 2) \x7b".toList, [], by decide, by decide⟩
  let E : Block "->" := ⟨"-> \x7b".toList, ["shift(0, 1)".toList], by decide, by decide⟩
  exact .matching M (.effect E .nil)

/-- The place where the grain inherits, and the numbers that are given there. -/
theorem grain_leads : ∃ b after, Leads "Sink" [] sinkOpening sinkBody grainOpening b ∧
    Builder.lines {} 0 (withRuleset [] sinkOpening sinkBody grainOpening ++ sinkBody) = .ok after ∧
    b.nextId = 1 ∧ after.nextId = 2 := by
  obtain ⟨c, ended, apart⟩ := Builder.exists_of_any
    (m := Builder.lines {} 0 (withRuleset [] sinkOpening sinkBody []))
    (P := fun c => !c.opens "Sink" (withRuleset [] sinkOpening sinkBody []).length grainOpening)
    (by decide +kernel)
  obtain ⟨b, reached, place⟩ := Builder.exists_of_any
    (m := Builder.lines {} 0 (withRuleset [] sinkOpening sinkBody grainOpening))
    (P := fun b => b.draft.isNone && decide (b.part? = some .update) && decide (b.nextId = 1))
    (by decide +kernel)
  obtain ⟨after, inPlace, given⟩ := Builder.exists_of_any
    (m := Builder.lines {} 0 (withRuleset [] sinkOpening sinkBody grainOpening ++ sinkBody))
    (P := fun after => decide (after.nextId = 2)) (by decide +kernel)
  simp only [Bool.and_eq_true, Option.isNone_iff_eq_none, decide_eq_true_eq] at place given
  refine ⟨b, after, ⟨eq_ok_of_toOption (by decide +kernel), ?_, ?_, reached, place.1.1,
    place.1.2⟩, inPlace, place.2, given⟩
  · rintro a ⟨⟩
    rfl
  · intro c' ended'
    cases ended.symm.trans ended'
    simpa using apart

def grainScript (lines : List (List Char)) : List Char :=
  scriptOf (withRuleset [] sinkOpening sinkBody grainOpening ++ lines)

theorem grain_reads_body : Reads (grainScript (sinkBody ++ grainRepeats))
    (withRuleset [] sinkOpening sinkBody grainOpening ++ (sinkBody ++ grainRepeats)) := by
  decide +kernel

theorem grain_reads_call :
    Reads (grainScript ("inherit Sink -P=0.5".toList :: grainRepeats))
      (withRuleset [] sinkOpening sinkBody grainOpening ++
        "inherit Sink -P=0.5".toList :: grainRepeats) := by
  decide +kernel

theorem sinkCall_read :
    Form.inherit.read "inherit Sink -P=0.5".toList = .ok ("Sink", [("P", "0.5".toList)]) :=
  eq_ok_of_toOption (by decide +kernel)

theorem sinkCall_probability :
    Builder.flaggedProbability [("P", "0.5".toList)] = .ok (some 0.5) :=
  eq_ok_of_toOption (by decide +kernel)

/-- A grain that inherits with and without a probability, and repeats the effect. -/
theorem grain_inherits :
    (compile (grainScript ("inherit Sink".toList :: grainRepeats))).toOption =
        (compile (grainScript (sinkBody ++ grainRepeats))).toOption ∧
    (compile (grainScript (sinkBody ++ grainRepeats))).toOption.isSome = true ∧
    ∃ after, Builder.lines {} 0
        (withRuleset [] sinkOpening sinkBody grainOpening ++ sinkBody) = .ok after ∧
      (compile (grainScript ("inherit Sink -P=0.5".toList :: grainRepeats))).toOption =
        (compile (grainScript (sinkBody ++ grainRepeats))).toOption.map
          (Compiled.retune (after.heirsOf
            (withRuleset [] sinkOpening sinkBody grainOpening ++ sinkBody).length [1] grainRepeats)
            0.5) := by
  obtain ⟨b, after, leads, inPlace, first, second⟩ := grain_leads
  refine ⟨?_, by decide +kernel, ?_⟩
  · have read : Form.inherit.read "inherit Sink".toList = .ok ("Sink", []) :=
      eq_ok_of_toOption (by decide +kernel)
    have reads : Reads (grainScript ("inherit Sink".toList :: grainRepeats))
        (withRuleset [] sinkOpening sinkBody grainOpening ++
          "inherit Sink".toList :: grainRepeats) := by
      decide +kernel
    exact (inherit_inlines leads sinkBody_ruleLines read reads grain_reads_body).1 rfl
  · obtain ⟨after', inPlace', same⟩ := (inherit_inlines leads sinkBody_ruleLines sinkCall_read
      grain_reads_call grain_reads_body).2 0.5 sinkCall_probability
    cases inPlace.symm.trans inPlace'
    rw [first, second] at same
    exact ⟨after, inPlace, same⟩

/-- The probabilities of the rules of a world, with their numbers. -/
def Compiled.probabilities (compiled : Compiled) : List (Nat × Float) :=
  compiled.world.rules.map fun (_, rule) => (rule.id, rule.probability)

/-- More than the inherited rules can have their probability: the rule that repeats the
effect of one of them has it as well. -/
theorem grain_repeats_probability : ∃ (b after : Builder),
    Leads "Sink" [] sinkOpening sinkBody grainOpening b ∧ RuleLines sinkBody ∧
    Form.inherit.read "inherit Sink -P=0.5".toList = .ok ("Sink", [("P", "0.5".toList)]) ∧
    Builder.flaggedProbability [("P", "0.5".toList)] = .ok (some 0.5) ∧
    Builder.lines {} 0 (withRuleset [] sinkOpening sinkBody grainOpening ++ sinkBody) = .ok after ∧
    Reads (grainScript ("inherit Sink -P=0.5".toList :: grainRepeats))
      (withRuleset [] sinkOpening sinkBody grainOpening ++
        "inherit Sink -P=0.5".toList :: grainRepeats) ∧
    Reads (grainScript (sinkBody ++ grainRepeats))
      (withRuleset [] sinkOpening sinkBody grainOpening ++ (sinkBody ++ grainRepeats)) ∧
    (compile (grainScript ("inherit Sink -P=0.5".toList :: grainRepeats))).toOption ≠
      (compile (grainScript (sinkBody ++ grainRepeats))).toOption.map
        (Compiled.retune (List.range' b.nextId (after.nextId - b.nextId)) 0.5) := by
  obtain ⟨b, after, leads, inPlace, first, second⟩ := grain_leads
  refine ⟨b, after, leads, sinkBody_ruleLines, sinkCall_read, sinkCall_probability, inPlace,
    grain_reads_call, grain_reads_body, ?_⟩
  rw [first, second]
  intro same
  have probabilities := congrArg (Option.map Compiled.probabilities) same
  rw [Option.map_map] at probabilities
  revert probabilities
  decide +kernel

end FallingSand.Script
