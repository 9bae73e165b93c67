import FallingSand.Proofs.Engine.Assigning
import FallingSand.Proofs.Engine.Completing
import FallingSand.Proofs.Engine.Conservation
import FallingSand.Proofs.Script.WellFormed
import Mathlib.Data.List.Induction

/-!
# What effects write

A symbol of an effect pattern is looked up twice. The compiler looks for a step that
binds it, anywhere in the rule, and else for an atom. The engine looks among the cells
that are captured when the box is filled, and else for an atom. Where every symbol is
bound before the box is filled the two agree: whatever a symbol stands for is what its
cell becomes, and no symbol is passed over.
-/

namespace FallingSand

namespace Engine

open FallingSand.Random (WordSource)

variable {ρ : Type} [WordSource ρ] {world : World} {rule : Rule} {s : Snapshot} {source : ρ}
  {after : State Snapshot ρ}

/-! ## One cell -/

/-- What becomes of a cell of the box by its symbol, as the engine looks it up. -/
inductive Places (ρ : Type) [WordSource ρ] (world : World) (anchor : Cell)
    (captured : Table Cell) : EffectSymbol → Fill → Prop
  | keep : Places ρ world anchor captured .keep .keep
  | anchor : Places ρ world anchor captured .anchor (.write anchor)
  | empty {made : Cell} : Fresh ρ world world.empty made →
      Places ρ world anchor captured .empty (.write made)
  | captured {name : String} {cell : Cell} : captured.get? name = some cell →
      Places ρ world anchor captured (.place name) (.write cell)
  | fresh {name : String} {id : AtomId} {made : Cell} : captured.get? name = none →
      world.placeable? name = some id → Fresh ρ world id made →
      Places ρ world anchor captured (.place name) (.write made)
  | nothing {name : String} : captured.get? name = none → world.placeable? name = none →
      Places ρ world anchor captured (.place name) .keep

/-- What is settled for a cell is what its symbol says. -/
theorem places_settle {anchor : Cell} {captured : Table Cell} {symbol : EffectSymbol}
    (ended : (settle world anchor captured symbol source).1 = .ok ()) :
    Places ρ world anchor captured symbol (settle world anchor captured symbol source).2.1 := by
  have fresh (id : AtomId)
      (ended : (workOut world (world.atom id).init (world.atom id).newCell source).1 = .ok ()) :
      Fresh ρ world id (workOut world (world.atom id).init (world.atom id).newCell source).2.1 :=
    ⟨source, grown_workOut ended⟩
  cases symbol with
  | keep => exact .keep
  | anchor => exact .anchor
  | empty => exact .empty (fresh world.empty ended)
  | place name =>
    unfold settle madeOf? copied? at *
    cases found : captured.get? name with
    | some cell =>
      simp only [found]
      exact .captured found
    | none =>
      cases atom : world.placeable? name with
      | some id =>
        simp only [found, atom] at ended ⊢
        exact .fresh found atom (fresh id ended)
      | none =>
        simp only [found, atom]
        exact .nothing found atom

section

variable (shaped : ∀ id, (world.atom id).Shaped) (full : s.Full) {captured : Table Cell}

include shaped full

/-! ## The box -/

/-- Filling a box makes of each of its cells what its symbol says. -/
theorem exec_fillBox_places {target : Vec} {o : Orientation}
    (h : exec (fillBox world rule target o captured) ⟨s, source⟩ = (.ok (), after)) :
    after.board.Full ∧ after.board.size = s.size ∧ ∃ anchor, s.cell? target = some anchor ∧
      ∀ entry ∈ o.box rule target, entry.1.inBounds s.size = true → ∃ fill : Fill,
        after.board.cell? entry.1 = (fill.on s entry.1).cell? entry.1 ∧
        ∀ symbol ∈ rule.effectSymbol? entry.2.1 entry.2.2,
          Places ρ world anchor captured symbol fill := by
  obtain ⟨anchor, found, filled⟩ := exec_fillBox_ok h
  obtain ⟨turn, assigned⟩ := exec_fillCells rule s.size captured shaped (o.box_nodup rule target)
    (o.box_coordinates_nodup rule target) source
  obtain ⟨full', size, -, cells⟩ := assigned s anchor after full rfl filled
  refine ⟨full', size, anchor, found, ?_⟩
  intro entry boxed inside
  obtain ⟨ended, cell⟩ := cells entry boxed
  refine ⟨_, cell, ?_⟩
  intro symbol written
  unfold settleCell at ended ⊢
  simp only [Option.mem_def.mp written, inside, if_true] at ended ⊢
  exact places_settle ended

/-! ## Steps -/

omit shaped [WordSource ρ] in
theorem exec_change_ok {p : Vec} {name : String} {kind : Update} {value : Float32}
    (h : exec (change world p name kind value) ⟨s, source⟩ = (.ok (), after)) :
    after.board.Full ∧ after.board.size = s.size := by
  unfold change at h
  rw [exec_bind, exec_inGrid] at h
  dsimp only at h
  rw [show Board.inGrid s p = p.inBounds s.size from rfl] at h
  cases inside : p.inBounds s.size with
  | false =>
    rw [inside] at h
    cases h
    exact ⟨full, rfl⟩
  | true =>
    obtain ⟨cell, found⟩ := full.exists_cell inside
    rw [inside, if_pos rfl, exec_bind, exec_read, show Board.cell? s p = some cell from found] at h
    dsimp only at h
    split at h
    · rw [exec_write_full full inside] at h
      cases h
      exact ⟨Snapshot.full_write full p _, Snapshot.size_write s p _⟩
    · cases h
      exact ⟨full, rfl⟩

/-- What is captured after a step: what was captured before, and the cell that the step
itself captures. -/
def Recaptures (s : Snapshot) (target : Vec) (o : Orientation) (captured table : Table Cell) :
    Step → Prop
  | .bind name offset => (target + o.apply offset).inBounds s.size = true →
      ∃ cell, s.cell? (target + o.apply offset) = some cell ∧ table = captured.insert name cell
  | _ => table = captured

theorem exec_runStep_ok {target : Vec} {o : Orientation} {step : Step} {table : Table Cell}
    (h : exec (runStep world rule target o captured step) ⟨s, source⟩ = (.ok table, after)) :
    after.board.Full ∧ after.board.size = s.size ∧
      Recaptures s target o captured table step := by
  unfold runStep at h
  cases step with
  | bind name offset =>
    dsimp only at h
    rw [exec_bind, exec_inGrid] at h
    dsimp only at h
    rw [show Board.inGrid s (target + o.apply offset) =
      (target + o.apply offset).inBounds s.size from rfl] at h
    cases inside : (target + o.apply offset).inBounds s.size with
    | false =>
      rw [inside] at h
      cases h
      refine ⟨full, rfl, ?_⟩
      intro there
      rw [inside] at there
      cases there
    | true =>
      obtain ⟨cell, found⟩ := full.exists_cell inside
      rw [inside, if_pos rfl, exec_bind, exec_read,
        show Board.cell? s (target + o.apply offset) = some cell from found] at h
      cases h
      exact ⟨full, rfl, fun _ => ⟨cell, found, rfl⟩⟩
  | map =>
    obtain ⟨⟨⟩, mid, filled, rest⟩ := exec_bind_ok h
    cases rest
    obtain ⟨full', size, -⟩ := exec_fillBox_places shaped full filled
    exact ⟨full', size, rfl⟩
  | update kind name offset value =>
    obtain ⟨found, mid, evaluated, rest⟩ := exec_bind_ok h
    have board : mid.board = s := by
      rw [exec_evaluate] at evaluated
      exact (congrArg (·.2.board) evaluated).symm
    have midFull : mid.board.Full := by rw [board]; exact full
    cases found with
    | none =>
      cases rest
      exact ⟨midFull, by rw [board], rfl⟩
    | some x =>
      obtain ⟨⟨⟩, last, changed, rest⟩ := exec_bind_ok rest
      cases rest
      obtain ⟨full', size⟩ := exec_change_ok midFull changed
      exact ⟨full', size.trans (by rw [board]), rfl⟩

/-! ## Runs of steps -/

end

section Runs

variable (world : World) (rule : Rule) (target : Vec) (o : Orientation)

/-- Carries out steps of a rule; the result is what they capture. -/
def carryOut (steps : List Step) : Action Snapshot ρ (Table Cell) :=
  steps.foldlM (runStep world rule target o) {}

/-- The cell that steps have captured under a name: the one that the last step which binds
the name found at its source. -/
def Captured (steps : List Step) (start : State Snapshot ρ) (name : String) (cell : Cell) : Prop :=
  ∃ before offset later table between, steps = before ++ .bind name offset :: later ∧
    (∀ other, .bind name other ∉ later) ∧
    exec (carryOut world rule target o before) start = (.ok table, between) ∧
    between.board.cell? (target + o.apply offset) = some cell

end Runs

variable {target : Vec} {o : Orientation}

/-- Steps that go through reach each of them, and it goes through. -/
theorem exec_runSteps_ok {before after : List Step} {step : Step}
    (steps : rule.steps = before ++ step :: after) {start final : State Snapshot ρ}
    (h : exec (runSteps world rule target o) start = (.ok (), final)) :
    ∃ captured between table ended,
      exec (carryOut world rule target o before) start = (.ok captured, between) ∧
        exec (runStep world rule target o captured step) between = (.ok table, ended) := by
  obtain ⟨last, whole⟩ := exec_discard h
  rw [steps, List.foldlM_append] at whole
  obtain ⟨captured, between, reached, rest⟩ := exec_bind_ok whole
  obtain ⟨table, ended, stepped, -⟩ := exec_bind_ok rest
  exact ⟨captured, between, table, ended, reached, stepped⟩

theorem Captured.later {steps : List Step} {start : State Snapshot ρ} {name : String}
    {cell : Cell} (captured : Captured world rule target o steps start name cell) {step : Step}
    (other : ∀ offset, step ≠ .bind name offset) :
    Captured world rule target o (steps ++ [step]) start name cell := by
  obtain ⟨before, offset, later, table, between, rfl, last, run, found⟩ := captured
  refine ⟨before, offset, later ++ [step], table, between, by simp, ?_, run, found⟩
  intro offset' member
  rcases List.mem_append.mp member with old | new
  · exact last offset' old
  · exact other offset' (List.mem_singleton.mp new).symm

/-- While all sources lie in the grid, a name is captured if some step binds it, and then
as the last such step found it. -/
theorem exec_carryOut_ok (shaped : ∀ id, (world.atom id).Shaped) (full : s.Full)
    {steps : List Step} {table : Table Cell}
    (sources : ∀ name offset, .bind name offset ∈ steps →
      (target + o.apply offset).inBounds s.size = true)
    (h : exec (carryOut world rule target o steps) ⟨s, source⟩ = (.ok table, after)) :
    after.board.Full ∧ after.board.size = s.size ∧ ∀ name,
      (∃ cell, table.get? name = some cell ∧
        Captured world rule target o steps ⟨s, source⟩ name cell) ∨
      (table.get? name = none ∧ ∀ offset, .bind name offset ∉ steps) := by
  induction steps using List.reverseRecOn generalizing table after with
  | nil =>
    cases h
    exact ⟨full, rfl, fun name => .inr ⟨rfl, fun _ member => nomatch member⟩⟩
  | append_singleton before step ih =>
    have split : exec (carryOut world rule target o before >>= fun captured =>
        [step].foldlM (runStep world rule target o) captured) ⟨s, source⟩ =
        (.ok table, after) := by
      rw [carryOut, ← List.foldlM_append]
      exact h
    obtain ⟨captured, between, run, last⟩ := exec_bind_ok split
    obtain ⟨table', after', stepped, done⟩ := exec_bind_ok last
    cases done
    obtain ⟨midFull, midSize, known⟩ := ih
      (fun name offset member => sources name offset (List.mem_append_left _ member)) run
    obtain ⟨afterFull, afterSize, recaptures⟩ := exec_runStep_ok shaped midFull stepped
    refine ⟨afterFull, afterSize.trans midSize, ?_⟩
    intro name
    -- A step that does not bind the name leaves its cell as it was.
    have kept (other : ∀ offset, step ≠ .bind name offset)
        (same : table.get? name = captured.get? name) :
        (∃ cell, table.get? name = some cell ∧
          Captured world rule target o (before ++ [step]) ⟨s, source⟩ name cell) ∨
        (table.get? name = none ∧ ∀ offset, .bind name offset ∉ before ++ [step]) := by
      rw [same]
      rcases known name with ⟨cell, found, captured⟩ | ⟨absent, unbound⟩
      · exact .inl ⟨cell, found, captured.later other⟩
      · refine .inr ⟨absent, ?_⟩
        intro offset member
        rcases List.mem_append.mp member with old | new
        · exact unbound offset old
        · exact other offset (List.mem_singleton.mp new).symm
    cases step with
    | bind bound offset =>
      obtain ⟨cell, found, rfl⟩ := recaptures (by
        rw [midSize]
        exact sources bound offset (List.mem_append_right _ List.mem_cons_self))
      by_cases same : bound = name
      · subst same
        refine .inl ⟨cell, by rw [Table.get?_insert, if_pos rfl], ?_⟩
        exact ⟨before, offset, [], captured, between, rfl, fun _ => List.not_mem_nil, run, found⟩
      · refine kept ?_ (by rw [Table.get?_insert, if_neg same])
        rintro _ ⟨⟩
        exact same rfl
    | map => exact kept (fun _ => nofun) (by rw [recaptures])
    | update kind property offset value => exact kept (fun _ => nofun) (by rw [recaptures])

/-! ## No symbol is passed over -/

/-- What a symbol of an effect pattern stands for in a rule: the anchor, a new cell of the
empty type, the cell that is captured under a name that some step of the rule binds, or
else a new cell of the atom with that name. -/
inductive StandsFor (ρ : Type) [WordSource ρ] (world : World) (rule : Rule)
    (anchor : Option Cell) (captured : String → Cell → Prop) : EffectSymbol → Cell → Prop
  | anchor {cell : Cell} : anchor = some cell →
      StandsFor ρ world rule anchor captured .anchor cell
  | empty {cell : Cell} : Fresh ρ world world.empty cell →
      StandsFor ρ world rule anchor captured .empty cell
  | captured {name : String} {cell : Cell} : name ∈ rule.boundSymbols → captured name cell →
      StandsFor ρ world rule anchor captured (.place name) cell
  | atom {name : String} {id : AtomId} {cell : Cell} : name ∉ rule.boundSymbols →
      world.placeable? name = some id → Fresh ρ world id cell →
      StandsFor ρ world rule anchor captured (.place name) cell

end Engine

open Engine
open FallingSand.Random (WordSource)

/-- In a compiled world a rule that binds every symbol before it fills its box overwrites each
cell of the box with what its symbol stands for; only `/` leaves a cell as it is. -/
theorem effects_overwrite {source : List Char} {compiled : Script.Compiled}
    (h : Script.compile source = .ok compiled) {atom : AtomType}
    (member : atom ∈ compiled.world.atoms) {rule : Rule} (among : rule ∈ atom.allRules)
    {before after : List Step} (steps : rule.steps = before ++ .map :: after)
    (early : ∀ name ∈ rule.boundSymbols, .place name ∈ rule.effect →
      ∃ offset, .bind name offset ∈ before)
    {s : Snapshot} (full : s.Full) {ρ : Type} [WordSource ρ] (words : ρ) (target : Vec)
    (o : Orientation)
    (sources : ∀ name offset, .bind name offset ∈ rule.steps →
      (target + o.apply offset).inBounds s.size = true)
    {captured table : Table Cell} {between ended : State Snapshot ρ}
    (reached : exec (carryOut compiled.world rule target o before) ⟨s, words⟩ =
      (.ok captured, between))
    (mapped : exec (runStep compiled.world rule target o captured .map) between =
      (.ok table, ended)) :
    ∀ entry ∈ o.box rule target, entry.1.inBounds s.size = true →
      ∃ symbol, rule.effectSymbol? entry.2.1 entry.2.2 = some symbol ∧
        (symbol = .keep → ended.board.cell? entry.1 = between.board.cell? entry.1) ∧
        (symbol ≠ .keep → ∃ cell, ended.board.cell? entry.1 = some cell ∧
          StandsFor ρ compiled.world rule (between.board.cell? target)
            (Captured compiled.world rule target o before ⟨s, words⟩) symbol cell) := by
  intro entry boxed inside
  have shaped (id : AtomId) : (compiled.world.atom id).Shaped := (Script.shaped_atom h id).1
  have earlier {step : Step} (member : step ∈ before) : step ∈ rule.steps := by
    rw [steps]
    exact List.mem_append_left _ member
  -- The steps before the box is filled.
  obtain ⟨midFull, midSize, known⟩ := exec_carryOut_ok shaped full
    (fun name offset member => sources name offset (earlier member)) reached
  have inside' : entry.1.inBounds between.board.size = true := by rw [midSize]; exact inside
  -- The box is filled.
  obtain ⟨⟨⟩, last, filled, done⟩ := exec_bind_ok mapped
  cases done
  obtain ⟨-, -, anchor, found, cells⟩ := exec_fillBox_places shaped midFull filled
  obtain ⟨fill, cell, places⟩ := cells entry boxed inside'
  rw [cell?_on_self midFull inside'] at cell
  -- There is a symbol for every cell.
  have whole : rule.effect.size = rule.area := by
    refine (Script.wellFormedClosure.rules_of_compile h member rule among).filled ?_
    rw [Rule.hasMap, steps]
    simp [Step.isMap]
  have coordinates := (o.box_coordinates_perm rule target).mem_iff.mp (List.mem_map_of_mem boxed)
  have bound : rule.place entry.2.1 entry.2.2 < rule.effect.size := by
    rw [whole]
    exact Orientation.place_lt_area coordinates
  have written : rule.effectSymbol? entry.2.1 entry.2.2 =
      some rule.effect[rule.place entry.2.1 entry.2.2] := Array.getElem?_eq_getElem bound
  have placed : rule.effect[rule.place entry.2.1 entry.2.2] ∈ rule.effect :=
    Array.getElem_mem bound
  have places := places _ written
  refine ⟨_, written, ?_⟩
  generalize rule.effect[rule.place entry.2.1 entry.2.2] = symbol at placed places ⊢
  -- What is not captured is not bound at all.
  have unbound {name : String} (placed : .place name ∈ rule.effect)
      (absent : captured.get? name = none) : name ∉ rule.boundSymbols := by
    intro bound
    obtain ⟨offset, member⟩ := early name bound placed
    rcases known name with ⟨cell, found, -⟩ | ⟨-, none⟩
    · rw [absent] at found
      cases found
    · exact none offset member
  cases places with
  | keep => exact ⟨fun _ => cell, fun other => absurd rfl other⟩
  | anchor => exact ⟨by simp, fun _ => ⟨_, cell, .anchor found⟩⟩
  | empty fresh => exact ⟨by simp, fun _ => ⟨_, cell, .empty fresh⟩⟩
  | @captured name other captures =>
    refine ⟨by simp, fun _ => ⟨_, cell, ?_⟩⟩
    rcases known name with ⟨cell', found', captured⟩ | ⟨absent, -⟩
    · rw [captures] at found'
      cases found'
      obtain ⟨first, offset, later, -, -, rfl, -⟩ := id captured
      exact .captured (Rule.mem_boundSymbols.mpr ⟨offset, earlier (by simp)⟩) captured
    · rw [captures] at absent
      cases absent
  | fresh absent atom fresh =>
    exact ⟨by simp, fun _ => ⟨_, cell, .atom (unbound placed absent) atom fresh⟩⟩
  | nothing absent nowhere =>
    have somewhere := Script.placeable_of_compile h member among placed (unbound placed absent)
    rw [nowhere] at somewhere
    cases somewhere

theorem sunk_effects_overwrite : ∃ rule ∈ (Script.sunk.world.atom 1).allRules,
    ∃ captured table, ∃ between ended : State Snapshot Random.SplitMix,
      exec (carryOut Script.sunk.world rule ⟨0, 0⟩ .identity [.bind "under" ⟨0, 1⟩])
        ⟨Snapshot.pile, ⟨7⟩⟩ = (.ok captured, between) ∧
      exec (runStep Script.sunk.world rule ⟨0, 0⟩ .identity captured .map) between =
        (.ok table, ended) ∧
      ∀ entry ∈ Orientation.identity.box rule ⟨0, 0⟩,
        entry.1.inBounds Snapshot.pile.size = true →
        ∃ symbol, rule.effectSymbol? entry.2.1 entry.2.2 = some symbol ∧
          (symbol = .keep → ended.board.cell? entry.1 = between.board.cell? entry.1) ∧
          (symbol ≠ .keep → ∃ cell, ended.board.cell? entry.1 = some cell ∧
            StandsFor Random.SplitMix Script.sunk.world rule (between.board.cell? ⟨0, 0⟩)
              (Captured Script.sunk.world rule ⟨0, 0⟩ .identity [.bind "under" ⟨0, 1⟩]
                (⟨Snapshot.pile, ⟨7⟩⟩ : State Snapshot Random.SplitMix)) symbol cell) := by
  obtain ⟨rule, among⟩ : ∃ rule, (Script.sunk.world.atom 1).allRules[0]? = some rule :=
    Option.isSome_iff_exists.mp (by decide +kernel)
  have among := List.mem_of_getElem? among
  have captures : ∀ rule ∈ (Script.sunk.world.atom 1).allRules,
      Rule.captures? rule.steps = some [("under", ⟨0, 1⟩)] ∧
      (exec (runSteps Script.sunk.world rule ⟨0, 0⟩ .identity)
        (⟨Snapshot.pile, ⟨7⟩⟩ : State Snapshot Random.SplitMix)).1.toOption = some () := by
    decide +kernel
  obtain ⟨binds, succeeds⟩ := captures rule among
  have steps : rule.steps = [.bind "under" ⟨0, 1⟩] ++ .map :: [] := Rule.eq_of_captures binds
  have sources : ∀ name offset, Step.bind name offset ∈ rule.steps →
      ((⟨0, 0⟩ : Vec) + Orientation.identity.apply offset).inBounds Snapshot.pile.size = true := by
    intro name offset member
    rw [steps] at member
    simp only [List.cons_append, List.nil_append, List.mem_cons, Step.bind.injEq,
      List.not_mem_nil, or_false] at member
    rcases member with ⟨-, rfl⟩ | ⟨⟨⟩⟩
    decide
  obtain ⟨captured, between, table, ended, reached, mapped⟩ :=
    exec_runSteps_ok steps (Prod.ext (Script.eq_ok_of_toOption succeeds) rfl)
  have early : ∀ name ∈ rule.boundSymbols, .place name ∈ rule.effect →
      ∃ offset, Step.bind name offset ∈ [Step.bind "under" ⟨0, 1⟩] := by
    intro name bound _
    obtain ⟨offset, member⟩ := Rule.mem_boundSymbols.mp bound
    rw [steps] at member
    rcases List.mem_append.mp member with early | late
    · exact ⟨offset, early⟩
    · cases late with
      | tail _ late => cases late
  have full : Snapshot.pile.Full := rfl
  have member : Script.sunk.world.atom 1 ∈ Script.sunk.world.atoms :=
    Array.mem_toList_iff.mp (Script.sunk.world.atom_mem 1)
  have overwritten := effects_overwrite Script.compile_sinking member among steps early full
    (⟨7⟩ : Random.SplitMix) ⟨0, 0⟩ .identity sources reached mapped
  exact ⟨rule, among, captured, table, between, ended, reached, mapped, overwritten⟩

/-! ## A symbol that is bound too late -/

/-- A script with a rule that fills its box before it captures the cell that it places. -/
def Script.premature : List Char :=
  ["atom Empty \x7b", "\x7d",
   "atom A \x7b", "section update \x7b",
   "match (0, 0, 2, 1) \x7b", "\x7d",
   "-> \x7b", "pattern", "x a", "def a = (0, 0)", "\x7d",
   "\x7d", "\x7d"].flatMap fun line => line.toList ++ ['\n']

theorem Script.premature_compiles : (compile premature).toOption.isSome = true := by
  decide +kernel

def Script.hurried : Compiled := (compile premature).toOption.get premature_compiles

theorem Script.compile_premature : compile premature = .ok hurried :=
  eq_ok_of_toOption (Option.some_get premature_compiles).symm

/-- Two different cells side by side. -/
def Snapshot.sideBySide : Snapshot := ⟨⟨2, 1⟩, #[⟨1, {}⟩, {}]⟩

/-- A rule can leave a cell as it was although it binds the symbol of the cell. -/
theorem hurried_passes_over : Script.compile Script.premature = .ok Script.hurried ∧
    ∃ atom ∈ Script.hurried.world.atoms, ∃ rule ∈ atom.allRules,
      rule.steps.map Step.isMap = [true, false] ∧
      (rule.steps.all fun
        | .bind _ offset => ((⟨0, 0⟩ : Vec) + Orientation.identity.apply offset).inBounds
            Snapshot.sideBySide.size
        | _ => true) = true ∧
      rule.effectSymbol? 1 0 = some (.place "a") ∧ "a" ∈ rule.boundSymbols ∧
      let ended := exec (runStep Script.hurried.world rule ⟨0, 0⟩ .identity {} .map)
        (⟨Snapshot.sideBySide, ⟨7⟩⟩ : State Snapshot Random.SplitMix)
      ended.1.toOption = some {} ∧
        ended.2.board.cell? ⟨1, 0⟩ = Snapshot.sideBySide.cell? ⟨1, 0⟩ ∧
        Snapshot.sideBySide.cell? ⟨1, 0⟩ ≠ Snapshot.sideBySide.cell? ⟨0, 0⟩ :=
  ⟨Script.compile_premature, by decide +kernel⟩

end FallingSand
