import FallingSand.Proofs.Engine.Material
import FallingSand.Proofs.Script.Shape

/-!
# Conservation of material

A rule rearranges if it captures some cells and then fills its box with the anchor
and the captured cells, in such a way that every cell that is filled is placed
somewhere once. A world whose rules all rearrange neither makes nor loses anything:
every tick keeps the multiset of the cells, whatever comes of it.

The box is filled one cell at a time. That this is as good as filling it at once is
due to the captures, which are taken before; that no capture is missing is due to the
match pattern, which keeps the box inside the grid.
-/

namespace FallingSand

/-! ## Rules that rearrange -/

namespace Rule

/-- What steps capture that do nothing but capture and, at the end, fill the box. -/
def captures? : List Step → Option (List (String × Vec))
  | [.map] => some []
  | .bind symbol source :: rest => (captures? rest).map ((symbol, source) :: ·)
  | _ => none

theorem eq_of_captures {steps : List Step} {binds : List (String × Vec)}
    (h : captures? steps = some binds) :
    steps = binds.map (fun b => .bind b.1 b.2) ++ [.map] := by
  induction steps generalizing binds with
  | nil => cases h
  | cons step rest ih =>
    cases step with
    | map =>
      cases rest with
      | nil =>
        cases h
        rfl
      | cons next others => cases h
    | update kind name offset value => cases h
    | bind symbol source =>
      obtain ⟨tail, found, rfl⟩ := Option.map_eq_some_iff.mp h
      rw [ih found]
      rfl

/-- The coordinates of the box that the effect pattern does not leave alone. -/
def filled (rule : Rule) : List (Nat × Nat) :=
  rule.coordinates.filter fun c => (rule.effectSymbol? c.1 c.2).any (· != .keep)

/-- The coordinate of the cell that an effect symbol places. -/
def origin? (rule : Rule) (binds : List (String × Vec)) : EffectSymbol → Option Vec
  | .anchor => some rule.anchor
  | .place symbol => (Table.lookup symbol binds).map (rule.anchor + ·)
  | _ => none

/-- The coordinate of the cell that comes to a coordinate of the box. -/
def originAt? (rule : Rule) (binds : List (String × Vec)) (c : Nat × Nat) : Option Vec :=
  (rule.effectSymbol? c.1 c.2).bind (rule.origin? binds)

/-- With some captures a rule puts the cells that it fills into another order. -/
structure Rearranges (rule : Rule) (binds : List (String × Vec)) : Prop where
  /-- The match pattern keeps the box inside the grid. -/
  pattern : ∃ symbols ∈ rule.pattern, MatchSymbol.outside ∉ symbols
  names : (binds.map Prod.fst).Nodup
  /-- Every filled cell comes from a filled cell, and each of these goes somewhere once. -/
  origins : (rule.filled.map (rule.originAt? binds)).Perm
    (rule.filled.map fun c => some (Vec.ofNat c.1 c.2))

instance (rule : Rule) (binds : List (String × Vec)) : Decidable (rule.Rearranges binds) :=
  decidable_of_iff
    ((∃ symbols ∈ rule.pattern, MatchSymbol.outside ∉ symbols) ∧ (binds.map Prod.fst).Nodup ∧
      (rule.filled.map (rule.originAt? binds)).Perm
        (rule.filled.map fun c => some (Vec.ofNat c.1 c.2)))
    ⟨fun ⟨pattern, names, origins⟩ => ⟨pattern, names, origins⟩,
      fun h => ⟨h.pattern, h.names, h.origins⟩⟩

/-- A rule captures cells, fills its box and does nothing else, and that rearranges. -/
def Rearranging (rule : Rule) : Prop := ∃ binds ∈ captures? rule.steps, rule.Rearranges binds

instance (rule : Rule) : Decidable rule.Rearranging :=
  inferInstanceAs (Decidable (∃ binds ∈ captures? rule.steps, rule.Rearranges binds))

end Rule

namespace Engine

open FallingSand.Random (WordSource)

variable {ρ : Type} {world : World} {rule : Rule} {s : Snapshot} {target : Vec}
  {o : Orientation} {binds : List (String × Vec)}

/-! ## The cells of the box -/

/-- A box lies in the grid if it fits a whole pattern that asks for nothing outside. -/
theorem box_inside {owner : AtomType} (shaped : rule.Shaped)
    (pattern : ∃ symbols ∈ rule.pattern, MatchSymbol.outside ∉ symbols)
    (fits : (o.box rule target).all (fitsOn world owner rule s) = true) :
    ∀ c ∈ rule.coordinates, (o.spot rule target (Vec.ofNat c.1 c.2)).inBounds s.size = true := by
  intro c hc
  obtain ⟨symbols, found, outside⟩ := pattern
  have bound : rule.place c.1 c.2 < symbols.size := by
    rw [shaped.pattern symbols found]
    exact Orientation.place_lt_area hc
  have symbol : rule.matchSymbol? c.1 c.2 = some symbols[rule.place c.1 c.2] := by
    rw [Rule.matchSymbol?, Option.mem_def.mp found]
    exact Array.getElem?_eq_getElem bound
  have fit := List.all_eq_true.mp fits (o.spot rule target (Vec.ofNat c.1 c.2), c)
    ((o.box_perm rule target).mem_iff.mpr (List.mem_map_of_mem hc))
  -- Only the symbol for the outside fits a cell that is not there.
  by_contra nowhere
  rw [Bool.not_eq_true] at nowhere
  rw [fitsOn, symbol, Snapshot.cell?_eq_none nowhere] at fit
  exact outside (eq_of_beq fit ▸ Array.getElem_mem bound)

/-! ## Captures -/

theorem exec_bindStep (full : s.Full) (table : Table Cell) (symbol : String) (source : Vec)
    (words : ρ) [WordSource ρ] :
    exec (runStep world rule target o table (.bind symbol source)) ⟨s, words⟩ =
      (.ok (match s.cell? (target + o.apply source) with
        | some cell => table.insert symbol cell
        | none => table), ⟨s, words⟩) := by
  unfold runStep
  dsimp only
  rw [exec_bind, exec_inGrid]
  dsimp only
  cases inside : Board.inGrid s (target + o.apply source) with
  | false =>
    rw [Snapshot.cell?_eq_none inside]
    rfl
  | true =>
    obtain ⟨cell, found⟩ := full.exists_cell inside
    have there : Board.cell? s (target + o.apply source) = some cell := found
    show exec (read (target + o.apply source) >>= fun cell => pure (table.insert symbol cell)) _ = _
    rw [exec_bind, exec_read, there, found]
    rfl

/-- What is captured under different names is there to be placed. -/
theorem exec_captures [WordSource ρ] (world : World) (full : s.Full)
    (names : (binds.map Prod.fst).Nodup) (table : Table Cell) :
    ∃ after : Table Cell,
      (∀ words : ρ, exec ((binds.map fun b => Step.bind b.1 b.2).foldlM
        (runStep world rule target o) table) ⟨s, words⟩ = (.ok after, ⟨s, words⟩)) ∧
      (∀ name, name ∉ binds.map Prod.fst → after.get? name = table.get? name) ∧
      ∀ name source cell, Table.lookup name binds = some source →
        s.cell? (target + o.apply source) = some cell → after.get? name = some cell := by
  induction binds generalizing table with
  | nil => exact ⟨table, fun _ => rfl, fun _ _ => rfl, fun _ _ _ found => nomatch found⟩
  | cons b rest ih =>
    obtain ⟨symbol, source⟩ := b
    rw [List.map_cons, List.nodup_cons] at names
    -- The later captures have other names and leave this one alone.
    obtain ⟨after, runs, others, captured⟩ :=
      ih names.2 (match s.cell? (target + o.apply source) with
        | some cell => table.insert symbol cell
        | none => table)
    refine ⟨after, ?_, ?_, ?_⟩
    · intro words
      rw [List.map_cons, List.foldlM_cons, exec_bind, exec_bindStep full]
      exact runs words
    · intro name new
      rw [List.map_cons, List.mem_cons, not_or] at new
      rw [others name new.2]
      cases s.cell? (target + o.apply source) with
      | none => rfl
      | some cell =>
        show (table.insert symbol cell).get? name = table.get? name
        rw [Table.get?_insert, if_neg (Ne.symm new.1)]
    · intro name position cell found there
      rw [Table.lookup] at found
      split at found
      · subst symbol
        cases found
        rw [others name names.1, there]
        show (table.insert name cell).get? name = some cell
        rw [Table.get?_insert, if_pos rfl]
      · exact captured name position cell found there

/-! ## Filling the box -/

/-- The cell that comes to a coordinate of the patterns. -/
def arrival (rule : Rule) (binds : List (String × Vec)) (s : Snapshot) (target : Vec)
    (o : Orientation) (c : Nat × Nat) : Option Cell :=
  (rule.originAt? binds c).bind fun v => s.cell? (o.spot rule target v)

/-- What becomes of the cell at a coordinate of the patterns. -/
def arrivalFill (rule : Rule) (binds : List (String × Vec)) (s : Snapshot) (target : Vec)
    (o : Orientation) (c : Nat × Nat) : Fill :=
  match arrival rule binds s target o c with
  | some cell => .write cell
  | none => .keep

theorem arrival_eq (binds : List (String × Vec)) (s : Snapshot) (target : Vec)
    (o : Orientation) {c : Nat × Nat} {symbol : EffectSymbol}
    (found : rule.effectSymbol? c.1 c.2 = some symbol) :
    arrival rule binds s target o c =
      (rule.origin? binds symbol).bind fun v => s.cell? (o.spot rule target v) := by
  rw [arrival, Rule.originAt?, found]
  rfl

theorem mem_filled {c : Nat × Nat} {symbol : EffectSymbol} (known : c ∈ rule.coordinates)
    (found : rule.effectSymbol? c.1 c.2 = some symbol) (changes : symbol ≠ .keep) :
    c ∈ rule.filled := by
  refine List.mem_filter.mpr ⟨known, ?_⟩
  rw [found]
  simpa using changes

/-- With the captures at hand a symbol places what arrives. -/
theorem settles_place_arrival [WordSource ρ] {anchor : Cell} (here : s.cell? target = some anchor)
    {table : Table Cell}
    (captured : ∀ name source cell, Table.lookup name binds = some source →
      s.cell? (target + o.apply source) = some cell → table.get? name = some cell)
    {entry : Vec × Nat × Nat} (inside : entry.1.inBounds s.size = true)
    (known : entry.2 ∈ rule.coordinates)
    (arrives : entry.2 ∈ rule.filled → (arrival rule binds s target o entry.2).isSome)
    {symbol : EffectSymbol} (found : rule.effectSymbol? entry.2.1 entry.2.2 = some symbol) :
    (arrivalFill rule binds s target o entry.2).Settles s.size entry.1
      (place world anchor table symbol entry.1 : Action Snapshot ρ Unit) := by
  have origin := arrival_eq binds s target o found
  unfold arrivalFill
  cases symbol with
  | keep =>
    rw [origin]
    exact Fill.settles_pure
  | anchor =>
    have comes : arrival rule binds s target o entry.2 = some anchor := by
      rw [origin]
      show s.cell? (o.spot rule target rule.anchor) = some anchor
      rw [o.spot_anchor, here]
    rw [comes]
    exact Fill.settles_write inside anchor
  | empty =>
    -- A new cell comes from nowhere.
    have comes := arrives (mem_filled known found nofun)
    rw [origin] at comes
    cases comes
  | place name =>
    have comes := arrives (mem_filled known found nofun)
    obtain ⟨cell, arrived⟩ := Option.isSome_iff_exists.mp comes
    rw [arrived]
    rw [origin] at arrived
    cases bound : Table.lookup name binds with
    | none => simp [Rule.origin?, bound] at arrived
    | some source =>
      have there : s.cell? (target + o.apply source) = some cell := by
        rw [← o.spot_add rule target source, ← arrived, Rule.origin?, bound]
        rfl
      unfold place
      dsimp only
      rw [captured name source cell bound there]
      exact Fill.settles_write inside cell

theorem settles_arrival [WordSource ρ] {anchor : Cell} (here : s.cell? target = some anchor)
    {table : Table Cell}
    (captured : ∀ name source cell, Table.lookup name binds = some source →
      s.cell? (target + o.apply source) = some cell → table.get? name = some cell)
    {entry : Vec × Nat × Nat} (inside : entry.1.inBounds s.size = true)
    (known : entry.2 ∈ rule.coordinates)
    (arrives : entry.2 ∈ rule.filled → (arrival rule binds s target o entry.2).isSome) :
    (arrivalFill rule binds s target o entry.2).Settles s.size entry.1
      (fillCell world rule anchor table entry : Action Snapshot ρ Unit) := by
  cases found : rule.effectSymbol? entry.2.1 entry.2.2 with
  | none =>
    have nothing : arrivalFill rule binds s target o entry.2 = .keep := by
      simp [arrivalFill, arrival, Rule.originAt?, found]
    rw [nothing]
    exact settles_fillCell_of_none entry found
  | some symbol =>
    have placed : (arrivalFill rule binds s target o entry.2).Settles s.size entry.1
        (place world anchor table symbol entry.1 : Action Snapshot ρ Unit) :=
      settles_place_arrival here captured inside known arrives found
    have settled := settles_fillCell_of_place entry found fun _ => placed
    rw [if_pos inside] at settled
    exact settled

/-- The cells of the box are filled with each other. -/
theorem arrivals_perm (rearranges : rule.Rearranges binds) (s : Snapshot) (target : Vec)
    (o : Orientation) :
    (rule.filled.map (arrival rule binds s target o)).Perm
      (rule.filled.map fun c => s.cell? (o.spot rule target (Vec.ofNat c.1 c.2))) := by
  have perm := rearranges.origins.map fun v => v.bind fun v => s.cell? (o.spot rule target v)
  rw [List.map_map, List.map_map] at perm
  exact perm

theorem arrival_isSome (rearranges : rule.Rearranges binds)
    (there : ∀ c ∈ rule.coordinates, (s.cell? (o.spot rule target (Vec.ofNat c.1 c.2))).isSome)
    {c : Nat × Nat} (filled : c ∈ rule.filled) :
    (arrival rule binds s target o c).isSome := by
  have member := (arrivals_perm rearranges s target o).mem_iff.mp (List.mem_map_of_mem filled)
  obtain ⟨d, hd, same⟩ := List.mem_map.mp member
  rw [← same]
  exact there d (List.mem_filter.mp hd).1

theorem arrival_eq_none (binds : List (String × Vec)) (s : Snapshot) (target : Vec)
    (o : Orientation) {c : Nat × Nat} (known : c ∈ rule.coordinates)
    (kept : c ∉ rule.filled) : arrival rule binds s target o c = none := by
  unfold arrival Rule.originAt?
  cases found : rule.effectSymbol? c.1 c.2 with
  | none => rfl
  | some symbol =>
    by_cases same : symbol = .keep
    · subst same
      rfl
    · exact absurd (mem_filled known found same) kept

/-- Two ways to label a list agree up to order if they do on the chosen entries and are equal
on the others. -/
theorem map_perm_of_filter {α β : Type} {f g : α → β} {l : List α} (chosen : α → Bool)
    (perm : ((l.filter chosen).map f).Perm ((l.filter chosen).map g))
    (others : ∀ x ∈ l, chosen x = false → f x = g x) : (l.map f).Perm (l.map g) := by
  have parts := List.filter_append_perm chosen l
  have rest : (l.filter fun x => !chosen x).map f = (l.filter fun x => !chosen x).map g := by
    refine List.map_congr_left ?_
    intro x hx
    obtain ⟨member, not⟩ := List.mem_filter.mp hx
    exact others x member (by simpa using not)
  have left := parts.map f
  have right := parts.map g
  rw [List.map_append] at left right
  rw [rest] at left
  exact left.symm.trans ((perm.append_right _).trans right)

theorem cells_of_inside (full : s.Full) (inside : ∀ c ∈ rule.coordinates,
      (o.spot rule target (Vec.ofNat c.1 c.2)).inBounds s.size = true) :
    ∀ c ∈ rule.coordinates, (s.cell? (o.spot rule target (Vec.ofNat c.1 c.2))).isSome := by
  intro c hc
  obtain ⟨cell, found⟩ := full.exists_cell (inside c hc)
  rw [found]
  rfl

/-- Filling the box with what arrives keeps the material. -/
theorem material_arrivals (full : s.Full) (rearranges : rule.Rearranges binds)
    (inside : ∀ c ∈ rule.coordinates,
      (o.spot rule target (Vec.ofNat c.1 c.2)).inBounds s.size = true) :
    (fillAll s ((o.box rule target).map fun entry =>
      (entry.1, arrivalFill rule binds s target o entry.2))).material = s.material := by
  have there := cells_of_inside full inside
  have perm := (o.box_perm rule target).map fun entry =>
    (entry.1, arrivalFill rule binds s target o entry.2)
  have distinct : (((o.box rule target).map fun entry =>
      (entry.1, arrivalFill rule binds s target o entry.2)).map Prod.fst).Nodup := by
    rw [List.map_map]
    exact o.box_nodup rule target
  rw [fillAll_perm perm distinct]
  refine material_fillAll full ((perm.map Prod.fst).nodup_iff.mp distinct) ?_ ?_
  · intro x member
    rw [List.map_map] at member
    obtain ⟨c, hc, rfl⟩ := List.mem_map.mp member
    exact inside c hc
  · simp only [List.map_map]
    -- Filled cells are exchanged among each other, the others stay.
    refine map_perm_of_filter
      (fun c : Nat × Nat => (rule.effectSymbol? c.1 c.2).any (· != .keep)) ?_ ?_
    · refine List.Perm.trans (List.Perm.of_eq (List.map_congr_left ?_))
        (arrivals_perm rearranges s target o)
      intro c hc
      obtain ⟨cell, comes⟩ := Option.isSome_iff_exists.mp (arrival_isSome rearranges there hc)
      have known := inside c (List.mem_filter.mp hc).1
      simp only [Function.comp_apply, arrivalFill, comes, cell?_on_self full known]
    · intro c hc kept
      have stays := arrival_eq_none binds s target o hc fun filled => by
        rw [(List.mem_filter.mp filled).2] at kept
        cases kept
      simp only [Function.comp_apply, arrivalFill, stays, cell?_on_self full (inside c hc)]

/-! ## Rules, ticks and runs -/

/-- The steps of a rule that rearranges fill the box with what arrives. -/
theorem exec_runSteps_arrivals [WordSource ρ] (full : s.Full)
    (here : target.inBounds s.size = true) (captures : Rule.captures? rule.steps = some binds)
    (rearranges : rule.Rearranges binds)
    (inside : ∀ c ∈ rule.coordinates,
      (o.spot rule target (Vec.ofNat c.1 c.2)).inBounds s.size = true) (words : ρ) :
    exec (runSteps world rule target o) ⟨s, words⟩ =
      (.ok (), ⟨fillAll s ((o.box rule target).map fun entry =>
        (entry.1, arrivalFill rule binds s target o entry.2)), words⟩) := by
  have there := cells_of_inside full inside
  obtain ⟨anchor, found⟩ := full.exists_cell here
  obtain ⟨table, runs, -, captured⟩ :=
    exec_captures (ρ := ρ) world full rearranges.names {}
  have filledBox : exec (fillBox world rule target o table) ⟨s, words⟩ =
      (.ok (), ⟨fillAll s ((o.box rule target).map fun entry =>
        (entry.1, arrivalFill rule binds s target o entry.2)), words⟩) := by
    rw [fillBox_eq, exec_bind, exec_read, show Board.cell? s target = some anchor from found]
    refine exec_forM_fill ?_ ?_ full rfl words
    · intro entry member
      have known := (o.box_coordinates_perm rule target).mem_iff.mp (List.mem_map_of_mem member)
      have inGrid : entry.1.inBounds s.size = true := by
        rw [Orientation.box_spot member]
        exact inside entry.2 known
      exact settles_arrival found captured inGrid known
        (arrival_isSome rearranges there)
    · intro entry _
      unfold arrivalFill
      cases arrival rule binds s target o entry.2 <;> exact nofun
  have mapped : exec ([Step.map].foldlM (runStep world rule target o) table) ⟨s, words⟩ =
      (.ok table, ⟨fillAll s ((o.box rule target).map fun entry =>
        (entry.1, arrivalFill rule binds s target o entry.2)), words⟩) := by
    rw [List.foldlM_cons, exec_bind]
    unfold runStep
    dsimp only
    rw [exec_bind, filledBox]
    rfl
  unfold runSteps
  rw [Rule.eq_of_captures captures, List.foldlM_append, exec_bind, exec_bind, runs]
  dsimp only
  rw [mapped]
  rfl

variable [WordSource ρ]

/-- Conditions look at a board and leave it alone. -/
theorem board_of_conditions (world : World) (conditions : List Expr) (target : Vec)
    (o : Orientation) (s : Snapshot) (words : ρ) :
    (exec (conditions.allM fun e => holds world e target o) ⟨s, words⟩).2.board = s := by
  have coupled : Coupled (steady (· = s)) Eq
      (conditions.allM fun e => holds world e target o : Action Snapshot ρ Bool)
      (conditions.allM fun e => holds world e target o) := by
    refine Coupled.allM (List.forall₂_same.mpr fun _ _ => rfl) ?_
    rintro e _ rfl
    refine coupled_steady ?_
    intro b source same
    unfold holds
    rw [exec_bind, exec_evaluate]
    cases ((e.eval (look world b target o)).run source).1 with
    | error error => exact same
    | ok x => exact same
  exact board_of_steady coupled rfl words

variable {size : Vec} {material : Multiset Cell}

/-- A rule that rearranges keeps the material, whether it applies, does not apply or fails. -/
theorem holds_applyRule (shaped : rule.Shaped) (rearranging : rule.Rearranging)
    (owner : AtomType) (o : Orientation) (here : target.inBounds size = true)
    (holds : Holds size material s) (words : ρ) :
    Holds size material (exec (applyRule world owner rule target o) ⟨s, words⟩).2.board := by
  obtain ⟨full, rfl, rfl⟩ := holds
  obtain ⟨binds, captures, rearranges⟩ := rearranging
  have unchanged : Holds s.size s.material s := ⟨full, rfl, rfl⟩
  have board := board_of_conditions world rule.conditions target o s words
  unfold applyRule
  rw [exec_bind, exec_fitsAt owner rule full]
  dsimp only
  cases fits : (o.box rule target).all (fitsOn world owner rule s) with
  | false => exact unchanged
  | true =>
    -- The rule fits, so its box lies in the grid; it remains to see that until the steps
    -- nothing is written.
    have inside := box_inside shaped rearranges.pattern fits
    rw [Bool.not_true, if_neg Bool.false_ne_true, exec_bind]
    revert board
    generalize exec (rule.conditions.allM fun e => holds world e target o) ⟨s, words⟩ = outcome
    intro board
    obtain ⟨result, b, words'⟩ := outcome
    subst board
    cases result with
    | error e => exact unchanged
    | ok met =>
      cases met with
      | false => exact unchanged
      | true =>
        dsimp only
        rw [Bool.not_true, if_neg Bool.false_ne_true, exec_bind,
          exec_runSteps_arrivals full here captures rearranges inside]
        exact ⟨full_fillAll full _, size_fillAll _ _,
          material_arrivals full rearranges inside⟩

/-- Where all rules rearrange, a tick keeps the material. -/
theorem holds_tick (shaped : ∀ id, ∀ rule ∈ (world.atom id).allRules, rule.Shaped)
    (rearranging : ∀ id, ∀ rule ∈ (world.atom id).allRules, rule.Rearranging) (target : Vec)
    (holds : Holds size material s) (words : ρ) :
    Holds size material (exec (tick world target) ⟨s, words⟩).2.board := by
  refine board_of_steady (coupled_tick steady_inGrid ?_ ?_ ?_) holds words
  · intro _
    exact steady_read
  · exact moves_holds
  · intro inside id rule member o
    exact coupled_steady fun b source kept => holds_applyRule (shaped id rule member)
      (rearranging id rule member) (world.atom id) o inside kept source

end Engine

open Engine
open FallingSand.Random (WordSource)

/-- What ticks leave of a snapshot, each with its target and its random words. -/
def Snapshot.afterTicks {ρ : Type} [WordSource ρ] (world : World) (s : Snapshot)
    (ticks : List (Vec × ρ)) : Snapshot :=
  ticks.foldl (fun s t => ((tick world t.1).run.run (⟨s, t.2⟩ : State Snapshot ρ)).2.board) s

/-- In a world whose rules all rearrange, no ticks change the multiset of the cells, whatever
their targets, their random words and their results are. -/
theorem material_conserved {source : List Char} {compiled : Script.Compiled}
    (h : Script.compile source = .ok compiled)
    (rearranging : ∀ atom ∈ compiled.world.atoms, ∀ rule ∈ atom.allRules, rule.Rearranging)
    {s : Snapshot} (full : s.Full) {ρ : Type} [WordSource ρ] (ticks : List (Vec × ρ)) :
    (s.afterTicks compiled.world ticks).Full ∧
      (s.afterTicks compiled.world ticks).size = s.size ∧
      (s.afterTicks compiled.world ticks).material = s.material := by
  have all (id : AtomId) (rule : Rule) (member : rule ∈ (compiled.world.atom id).allRules) :
      rule.Shaped ∧ rule.Rearranging :=
    ⟨(Script.shaped_atom h id).2 rule member,
      rearranging _ (Array.mem_toList_iff.mp (compiled.world.atom_mem id)) rule member⟩
  have run (start : Snapshot) (holds : Holds s.size s.material start) :
      Holds s.size s.material (start.afterTicks compiled.world ticks) := by
    induction ticks generalizing start with
    | nil => exact holds
    | cons t rest ih =>
      exact ih _ (holds_tick (fun id rule member => (all id rule member).1)
        (fun id rule member => (all id rule member).2) t.1 holds t.2)
  have after := run s ⟨full, rfl, rfl⟩
  exact ⟨after.full, after.size, after.material⟩

theorem sunk_rearranging :
    ∀ atom ∈ Script.sunk.world.atoms, ∀ rule ∈ atom.allRules, rule.Rearranging := by
  decide +kernel

theorem sunk_material_conserved : Snapshot.pile.Full ∧
    (Snapshot.pile.afterTicks Script.sunk.world
      [(⟨0, 0⟩, (⟨7⟩ : Random.SplitMix)), (⟨1, 1⟩, ⟨8⟩)]).material = Snapshot.pile.material :=
  ⟨rfl, (material_conserved Script.compile_sinking sunk_rearranging (s := Snapshot.pile) rfl
    [(⟨0, 0⟩, (⟨7⟩ : Random.SplitMix)), (⟨1, 1⟩, ⟨8⟩)]).2.2⟩

end FallingSand
