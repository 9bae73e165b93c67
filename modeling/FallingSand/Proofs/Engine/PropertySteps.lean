import FallingSand.Proofs.Engine.Overwriting
import FallingSand.Proofs.World.Typing

/-!
# What property steps touch

The steps `set`, `inc` and `clamp` name a property and an offset, and they change that property of
the cell at that offset and nothing else. A rule that does not fill its box is made of such steps
and of captures, so what it may change can be read off its steps (`ChangedBy`), whatever comes of
applying it. A step outside the grid changes nothing; whether the steps after it are carried out
depends on its value alone, which is worked out before the step looks where to write.
-/

namespace FallingSand

open FallingSand.Random (WordSource)

/-! ## Values that are read outside the grid -/

namespace Expr

/-- There are no values for slots of which one lies outside the grid. -/
theorem slotValues_ne_some {source : List Char} {lookup : String → Vec → Lookup}
    {slots : List Slot} (outside : ∃ slot ∈ slots, lookup slot.name slot.offset = .outOfGrid)
    (values : List Float) : slotValues source lookup slots ≠ .ok (some values) := by
  induction slots generalizing values with
  | nil =>
    obtain ⟨slot, member, -⟩ := outside
    cases member
  | cons slot rest ih =>
    unfold slotValues
    cases found : lookup slot.name slot.offset with
    | outOfGrid | missing | inaccessible => simp
    | value x =>
      have later : ∃ slot ∈ rest, lookup slot.name slot.offset = .outOfGrid := by
        obtain ⟨other, member, nowhere⟩ := outside
        rcases List.mem_cons.mp member with rfl | member
        · rw [nowhere] at found
          cases found
        · exact ⟨other, member, nowhere⟩
      cases tail : slotValues source lookup rest with
      | error error => simp
      | ok values =>
        cases values with
        | none => simp
        | some values => exact absurd tail (ih later values)

/-- An expression that reads outside the grid has no value. -/
theorem eval_ne_some {ρ : Type} [WordSource ρ] {e : Expr} {lookup : String → Vec → Lookup}
    (outside : ∃ slot ∈ e.slots, lookup slot.name slot.offset = .outOfGrid) (words : ρ)
    (x : Float) : ((e.eval lookup).run words).1 ≠ .ok (some x) := by
  unfold eval
  cases slots : slotValues e.source lookup e.slots with
  | error error => exact nofun
  | ok values =>
    cases values with
    | none => exact nofun
    | some values => exact absurd slots (slotValues_ne_some outside values)

end Expr

/-- The property that a step changes, and the offset at which it does. -/
def Step.named? : Step → Option (String × Vec)
  | .update _ name offset _ => some (name, offset)
  | _ => none

theorem Step.named?_eq_some {step : Step} {name : String} {offset : Vec} :
    step.named? = some (name, offset) ↔ ∃ kind value, step = .update kind name offset value := by
  cases step with
  | map | bind => simp [named?]
  | update kind other place value => simp [named?]

namespace Engine

variable {ρ : Type} {world : World} {rule : Rule} {s : Snapshot} {target : Vec} {o : Orientation}

/-! ## What may change -/

/-- Whether some step names a property of the cell at a position. -/
def ChangedBy (target : Vec) (o : Orientation) (steps : List Step) (p : Vec) (name : String) :
    Prop :=
  ∃ offset, (name, offset) ∈ steps.filterMap Step.named? ∧ target + o.apply offset = p

theorem ChangedBy.mono {steps more : List Step} (subset : steps ⊆ more) {p : Vec} {name : String}
    (changed : ChangedBy target o steps p name) : ChangedBy target o more p name := by
  obtain ⟨offset, named, here⟩ := changed
  obtain ⟨step, member, names⟩ := List.mem_filterMap.mp named
  exact ⟨offset, List.mem_filterMap.mpr ⟨step, subset member, names⟩, here⟩

/-- A snapshot that differs from another one in some properties only: no cell has another type,
no property is lost, and what is not named has stayed. -/
structure Touched (named : Vec → String → Prop) (s t : Snapshot) : Prop where
  full : t.Full
  size : t.size = s.size
  cells : ∀ p cell, s.cell? p = some cell → ∃ cell', t.cell? p = some cell' ∧
    cell'.Extends cell ∧
    ∀ name, cell'.properties.get? name ≠ cell.properties.get? name → named p name

namespace Touched

variable {named other : Vec → String → Prop} {t u : Snapshot}

theorem refl (full : s.Full) : Touched named s s :=
  ⟨full, rfl, fun _ cell found =>
    ⟨cell, found, .refl cell, fun _ different => absurd rfl different⟩⟩

theorem trans (first : Touched named s t) (second : Touched named t u) : Touched named s u := by
  refine ⟨second.full, second.size.trans first.size, ?_⟩
  intro p cell found
  obtain ⟨cell₁, found₁, extends₁, changed₁⟩ := first.cells p cell found
  obtain ⟨cell₂, found₂, extends₂, changed₂⟩ := second.cells p cell₁ found₁
  refine ⟨cell₂, found₂, extends₂.trans extends₁, ?_⟩
  intro name different
  by_cases same : cell₂.properties.get? name = cell₁.properties.get? name
  · exact changed₁ name (same ▸ different)
  · exact changed₂ name same

theorem mono (touched : Touched named s t) (more : ∀ p name, named p name → other p name) :
    Touched other s t := by
  refine ⟨touched.full, touched.size, ?_⟩
  intro p cell found
  obtain ⟨cell', found', extended, changed⟩ := touched.cells p cell found
  exact ⟨cell', found', extended, fun name different => more p name (changed name different)⟩

/-- A property of one cell is set. -/
theorem set (full : s.Full) {p : Vec} {cell : Cell} (found : s.cell? p = some cell)
    (name : String) (x : Float32) :
    Touched (fun q n => q = p ∧ n = name) s (s.write p (cell.set name x)) := by
  have inside := Snapshot.inBounds_of_cell? found
  refine ⟨Snapshot.full_write full p _, Snapshot.size_write s p _, ?_⟩
  intro q old there
  rw [Snapshot.cell?_write full inside]
  by_cases here : q = p
  · subst here
    rw [found] at there
    cases there
    refine ⟨_, if_pos rfl, .set cell name x, ?_⟩
    intro n different
    rw [Cell.get?_set] at different
    by_cases same : name = n
    · exact ⟨rfl, same.symm⟩
    · rw [if_neg same] at different
      exact absurd rfl different
  · exact ⟨old, by rw [if_neg here, there], .refl old, fun _ different => absurd rfl different⟩

end Touched

/-! ## Steps -/

theorem touched_change (world : World) (full : s.Full) (p : Vec) (name : String) (kind : Update)
    (value : Float32) (words : ρ) : Touched (fun q n => q = p ∧ n = name) s
      (exec (change world p name kind value) ⟨s, words⟩).2.board := by
  unfold change
  rw [exec_bind, exec_inGrid]
  dsimp only
  cases inside : Board.inGrid s p with
  | false => exact .refl full
  | true =>
    obtain ⟨cell, found⟩ := full.exists_cell inside
    rw [if_pos rfl, exec_bind, exec_read_of_cell? found]
    dsimp only
    cases kind.next? ((world.resolve? cell.properties cell.atom name).getD 0.0) value with
    | none => exact .refl full
    | some next =>
      dsimp only
      rw [exec_write_full full inside]
      exact .set full found name next

variable [WordSource ρ]

/-- A property step works out its value, and then changes the property, if there is a value. -/
theorem exec_updateStep (captured : Table Cell) (kind : Update) (name : String) (offset : Vec)
    (value : Expr) (words : ρ) :
    exec (runStep world rule target o captured (.update kind name offset value)) ⟨s, words⟩ =
      match (value.eval (look world s target o)).run words with
      | (.error error, words') => (.error (.eval error), ⟨s, words'⟩)
      | (.ok none, words') => (.ok captured, ⟨s, words'⟩)
      | (.ok (some x), words') =>
        exec (do
          change world (target + o.apply offset) name kind x.toFloat32
          return captured) ⟨s, words'⟩ := by
  unfold runStep
  dsimp only
  rw [exec_bind, exec_evaluate]
  cases (value.eval (look world s target o)).run words with
  | mk result words' =>
    cases result with
    | error error => rfl
    | ok x => cases x <;> rfl

/-- A step that does not fill the box touches what it names. -/
theorem touched_runStep (world : World) (rule : Rule) (target : Vec) (o : Orientation)
    (full : s.Full) {step : Step} (noMap : step.isMap = false) (captured : Table Cell)
    (words : ρ) : Touched (ChangedBy target o [step]) s
      (exec (runStep world rule target o captured step) ⟨s, words⟩).2.board := by
  cases step with
  | map => cases noMap
  | bind symbol source =>
    rw [exec_bindStep full]
    exact .refl full
  | update kind name offset value =>
    rw [exec_updateStep]
    obtain ⟨result, words'⟩ := (value.eval (look world s target o)).run words
    cases result with
    | error error => exact .refl full
    | ok x =>
      cases x with
      | none => exact .refl full
      | some x =>
        have touched := touched_change world full (target + o.apply offset) name kind
          x.toFloat32 words'
        have named : ∀ p n, p = target + o.apply offset ∧ n = name →
            ChangedBy target o [.update kind name offset value] p n := by
          rintro p n ⟨rfl, rfl⟩
          exact ⟨offset, List.mem_singleton_self _, rfl⟩
        dsimp only
        rw [exec_bind]
        generalize exec (change world (target + o.apply offset) name kind x.toFloat32)
          ⟨s, words'⟩ = outcome at touched ⊢
        obtain ⟨ended, after⟩ := outcome
        cases ended with
        | error error => exact touched.mono named
        | ok _ => exact touched.mono named

/-- Steps of which none fills the box touch what they name, whether they go through or not. -/
theorem touched_steps (world : World) (rule : Rule) (target : Vec) (o : Orientation)
    (full : s.Full) {steps : List Step} (noMap : steps.any Step.isMap = false)
    (captured : Table Cell) (words : ρ) : Touched (ChangedBy target o steps) s
      (exec (steps.foldlM (runStep world rule target o) captured) ⟨s, words⟩).2.board := by
  induction steps generalizing s captured words with
  | nil => exact .refl full
  | cons step rest ih =>
    rw [List.any_cons, Bool.or_eq_false_iff] at noMap
    have first := (touched_runStep world rule target o full noMap.1 captured words).mono fun _ _ =>
        ChangedBy.mono (List.cons_subset_cons step (List.nil_subset rest))
    rw [List.foldlM_cons, exec_bind]
    generalize exec (runStep world rule target o captured step) ⟨s, words⟩ = outcome at first ⊢
    obtain ⟨ended, after⟩ := outcome
    cases ended with
    | error error => exact first
    | ok captured =>
      exact first.trans ((ih first.full noMap.2 captured after.source).mono fun _ _ =>
        ChangedBy.mono (List.subset_cons_self step rest))

/-- Until its steps a rule only looks. -/
theorem exec_applyRule_cases (full : s.Full) (owner : AtomType) (words : ρ) :
    (∃ result words', exec (applyRule world owner rule target o) ⟨s, words⟩ =
        (result, ⟨s, words'⟩) ∧ result ≠ .ok true) ∨
      ∃ words', exec (applyRule world owner rule target o) ⟨s, words⟩ =
        exec (do
          runSteps world rule target o
          return true) ⟨s, words'⟩ := by
  have board := board_of_conditions world rule.conditions target o s words
  unfold applyRule
  rw [exec_bind, exec_fitsAt owner rule full]
  dsimp only
  cases (o.box rule target).all (fitsOn world owner rule s) with
  | false => exact .inl ⟨.ok false, words, rfl, nofun⟩
  | true =>
    rw [Bool.not_true, if_neg Bool.false_ne_true, exec_bind]
    generalize exec (rule.conditions.allM fun e => holds world e target o) ⟨s, words⟩ =
      outcome at board ⊢
    obtain ⟨result, b, words'⟩ := outcome
    subst board
    cases result with
    | error error => exact .inl ⟨.error error, words', rfl, nofun⟩
    | ok met =>
      cases met with
      | false => exact .inl ⟨.ok false, words', rfl, nofun⟩
      | true => exact .inr ⟨words', rfl⟩

omit [WordSource ρ] in
theorem board_of_discard {α δ : Type} (m : Action Snapshot ρ α) (x : δ)
    (state : State Snapshot ρ) :
    (exec (do
      let _ ← m
      return x) state).2.board = (exec m state).2.board := by
  rw [exec_bind]
  cases exec m state with
  | mk result after => cases result <;> rfl

theorem touched_applyRule (full : s.Full) (noMap : rule.hasMap = false) (owner : AtomType)
    (words : ρ) : Touched (ChangedBy target o rule.steps) s
      (exec (applyRule world owner rule target o) ⟨s, words⟩).2.board := by
  rcases exec_applyRule_cases full owner words with
    ⟨result, words', ended, -⟩ | ⟨words', ended⟩
  · rw [ended]
    exact .refl full
  · rw [ended, board_of_discard, runSteps, board_of_discard]
    exact touched_steps world rule target o full noMap {} words'

/-! ## Steps outside the grid -/

/-- A step whose value reads outside the grid, or that would write there. -/
def StepsOutside (size target : Vec) (o : Orientation) (offset : Vec) (value : Expr) : Prop :=
  (∃ slot ∈ value.slots, (target + o.apply slot.offset).inBounds size = false) ∨
    (target + o.apply offset).inBounds size = false

variable {kind : Update} {name : String} {offset : Vec} {value : Expr}

/-- Nothing is changed outside the grid, and only a value that cannot be worked out ends the
steps. -/
theorem exec_updateStep_outside (outside : StepsOutside s.size target o offset value)
    (captured : Table Cell) (words : ρ) :
    exec (runStep world rule target o captured (.update kind name offset value)) ⟨s, words⟩ =
      match (value.eval (look world s target o)).run words with
      | (.error error, words') => (.error (.eval error), ⟨s, words'⟩)
      | (.ok _, words') => (.ok captured, ⟨s, words'⟩) := by
  rw [exec_updateStep]
  rcases outside with ⟨slot, member, nowhere⟩ | nowhere
  · have unread : ∃ slot ∈ value.slots, look world s target o slot.name slot.offset =
        .outOfGrid := by
      refine ⟨slot, member, ?_⟩
      unfold look
      dsimp only
      rw [show Board.inGrid s (target + o.apply slot.offset) = false from nowhere]
      rfl
    have valueless := Expr.eval_ne_some unread words
    generalize (value.eval (look world s target o)).run words = outcome at valueless ⊢
    obtain ⟨result, words'⟩ := outcome
    cases result with
    | error error => rfl
    | ok x =>
      cases x with
      | none => rfl
      | some x => exact absurd rfl (valueless x)
  · obtain ⟨result, words'⟩ := (value.eval (look world s target o)).run words
    cases result with
    | error error => rfl
    | ok x =>
      cases x with
      | none => rfl
      | some x =>
        dsimp only
        unfold change
        rw [exec_bind, exec_bind, exec_inGrid,
          show Board.inGrid s (target + o.apply offset) = false from nowhere]
        rfl

/-- The steps after one that stands outside the grid run on the board as it was, unless the value
of the step cannot be worked out. -/
theorem exec_runSteps_outside {before later : List Step}
    (steps : rule.steps = before ++ .update kind name offset value :: later) {words : ρ}
    {captured : Table Cell} {between : State Snapshot ρ}
    (reached : exec (carryOut world rule target o before) ⟨s, words⟩ = (.ok captured, between))
    (outside : StepsOutside between.board.size target o offset value) :
    exec (runSteps world rule target o) ⟨s, words⟩ =
      match (value.eval (look world between.board target o)).run between.source with
      | (.error error, words') => (.error (.eval error), ⟨between.board, words'⟩)
      | (.ok _, words') =>
        exec (do let _ ← later.foldlM (runStep world rule target o) captured)
          ⟨between.board, words'⟩ := by
  have start : exec (before.foldlM (runStep world rule target o) {}) ⟨s, words⟩ =
      (.ok captured, between) := reached
  unfold runSteps
  rw [steps, List.foldlM_append, exec_bind, exec_bind, start]
  dsimp only
  rw [List.foldlM_cons, exec_bind, exec_updateStep_outside outside]
  obtain ⟨result, words'⟩ := (value.eval (look world between.board target o)).run between.source
  cases result with
  | error error => rfl
  | ok x =>
    dsimp only
    rw [exec_bind]

end Engine

open Engine

/-- A rule that does not fill its box touches nothing but the properties that its steps name,
whatever comes of applying it. A step outside the grid changes nothing, and the later steps are
carried out on the board as it is, unless working out the value of the step fails. -/
theorem property_steps_touch_named {ρ : Type} [WordSource ρ] (world : World) (owner : AtomType)
    {rule : Rule} (noMap : rule.hasMap = false) {s : Snapshot} (full : s.Full) (target : Vec)
    (o : Orientation) (words : ρ) :
    Touched (ChangedBy target o rule.steps) s
        (exec (applyRule world owner rule target o) ⟨s, words⟩).2.board ∧
      ∀ before kind name offset value later,
        rule.steps = before ++ Step.update kind name offset value :: later →
        StepsOutside s.size target o offset value →
        ∀ (start : ρ) captured between,
        exec (carryOut world rule target o before) ⟨s, start⟩ = (.ok captured, between) →
          (exec (runStep world rule target o captured (.update kind name offset value))
            between).2.board = between.board ∧
          (∀ x words', (value.eval (look world between.board target o)).run between.source =
              (.ok x, words') →
            exec (runSteps world rule target o) ⟨s, start⟩ =
              exec (do let _ ← later.foldlM (runStep world rule target o) captured)
                ⟨between.board, words'⟩) ∧
          ∀ error words', (value.eval (look world between.board target o)).run between.source =
              (.error error, words') →
            exec (runSteps world rule target o) ⟨s, start⟩ =
              (.error (.eval error), ⟨between.board, words'⟩) := by
  refine ⟨touched_applyRule full noMap owner words, ?_⟩
  intro before kind name offset value later steps outside start captured between reached
  have noMap' : before.any Step.isMap = false := by
    rw [Rule.hasMap, steps, List.any_append, Bool.or_eq_false_iff] at noMap
    exact noMap.1
  have touched := touched_steps world rule target o full noMap' {} start
  rw [← carryOut, reached] at touched
  rw [← touched.size] at outside
  refine ⟨?_, ?_, ?_⟩
  · rw [show between = ⟨between.board, between.source⟩ from rfl, exec_updateStep_outside outside]
    obtain ⟨result, words'⟩ := (value.eval (look world between.board target o)).run between.source
    cases result <;> rfl
  · intro x words' worked
    rw [exec_runSteps_outside steps reached outside, worked]
  · intro error words' failed
    rw [exec_runSteps_outside steps reached outside, failed]

/-- A script with a rule that writes outside the grid before it writes inside. -/
def Script.heating : List Char :=
  ["atom A \x7b", "section update \x7b", "match (0, 0, 1, 1) \x7b", "\x7d",
   "-> \x7b", "set [heat - 1, 0] = 5", "set [heat] = 1", "\x7d",
   "\x7d", "\x7d"].flatMap fun line => line.toList ++ ['\n']

theorem Script.heating_compiles : (compile heating).toOption.isSome = true := by decide +kernel

def Script.heated : Compiled := (compile heating).toOption.get heating_compiles

/-- One cell without properties. -/
def Snapshot.lone : Snapshot := ⟨⟨1, 1⟩, #[{}]⟩

theorem heated_touches_named : ∃ rule ∈ (Script.heated.world.atom 0).allRules,
    Touched (ChangedBy ⟨0, 0⟩ .identity rule.steps) Snapshot.lone
      (exec (applyRule Script.heated.world (Script.heated.world.atom 0) rule ⟨0, 0⟩ .identity)
        (⟨Snapshot.lone, ⟨7⟩⟩ : State Snapshot Random.SplitMix)).2.board ∧
    ∃ step later words', rule.steps = step :: later ∧ step.named? = some ("heat", ⟨1, 0⟩) ∧
      exec (runSteps Script.heated.world rule ⟨0, 0⟩ .identity)
          (⟨Snapshot.lone, ⟨7⟩⟩ : State Snapshot Random.SplitMix) =
        exec (do let _ ← later.foldlM (runStep Script.heated.world rule ⟨0, 0⟩ .identity) {})
          ⟨Snapshot.lone, words'⟩ := by
  obtain ⟨rule, first⟩ : ∃ rule, (Script.heated.world.atom 0).allRules[0]? = some rule :=
    Option.isSome_iff_exists.mp (by decide +kernel)
  have among := List.mem_of_getElem? first
  have facts : ∀ rule ∈ (Script.heated.world.atom 0).allRules, rule.hasMap = false ∧
      rule.steps.map Step.named? = [some ("heat", ⟨1, 0⟩), some ("heat", ⟨0, 0⟩)] ∧
      (rule.steps.all fun
        | .update _ _ _ value => (((value.eval
            (look Script.heated.world Snapshot.lone ⟨0, 0⟩ .identity)).run
              (⟨7⟩ : Random.SplitMix)).1.toOption.isSome)
        | _ => true) = true := by
    decide +kernel
  obtain ⟨noMap, named, valued⟩ := facts rule among
  obtain ⟨touched, outside⟩ := property_steps_touch_named Script.heated.world
    (Script.heated.world.atom 0) noMap (s := Snapshot.lone) rfl ⟨0, 0⟩ .identity
    (⟨7⟩ : Random.SplitMix)
  obtain ⟨step, later, steps, names, -⟩ := List.map_eq_cons_iff.mp named
  obtain ⟨kind, value, rfl⟩ := Step.named?_eq_some.mp names
  have worked := List.all_eq_true.mp valued _ (by rw [steps]; exact List.mem_cons_self)
  obtain ⟨x, found⟩ := Option.isSome_iff_exists.mp worked
  obtain ⟨-, runs, -⟩ := outside [] kind "heat" ⟨1, 0⟩ value later steps (.inr (by decide)) ⟨7⟩
    {} ⟨Snapshot.lone, ⟨7⟩⟩ rfl
  exact ⟨rule, among, touched, _, later, _, steps, names,
    runs x _ (Prod.ext (Script.eq_ok_of_toOption found) rfl)⟩

/-! ## A value that cannot be worked out -/

/-- A script with a step outside the grid whose value needs a property that no cell has. -/
def Script.chilling : List Char :=
  ["atom A \x7b", "section update \x7b", "match (0, 0, 1, 1) \x7b", "\x7d",
   "-> \x7b", "set [heat - 1, 0] = [cold]", "set [heat] = 1", "\x7d",
   "\x7d", "\x7d"].flatMap fun line => line.toList ++ ['\n']

theorem Script.chilling_compiles : (compile chilling).toOption.isSome = true := by decide +kernel

def Script.chilled : Compiled := (compile chilling).toOption.get chilling_compiles

/-- A step whose target is outside the grid can keep the later steps from being carried out. -/
theorem chilled_halts : Script.compile Script.chilling = .ok Script.chilled ∧
    ∃ rule ∈ (Script.chilled.world.atom 0).allRules, rule.hasMap = false ∧
      rule.steps.map Step.named? = [some ("heat", ⟨1, 0⟩), some ("heat", ⟨0, 0⟩)] ∧
      ((⟨0, 0⟩ : Vec) + Orientation.identity.apply ⟨1, 0⟩).inBounds Snapshot.lone.size = false ∧
      let run := exec (applyRule Script.chilled.world (Script.chilled.world.atom 0) rule ⟨0, 0⟩
        .identity) (⟨Snapshot.lone, ⟨7⟩⟩ : State Snapshot Random.SplitMix)
      let later := exec (rule.steps.tail.foldlM
        (runStep Script.chilled.world rule ⟨0, 0⟩ .identity) {})
          (⟨Snapshot.lone, ⟨7⟩⟩ : State Snapshot Random.SplitMix)
      run.1.toOption = none ∧ run.2.board.cell? ⟨0, 0⟩ = Snapshot.lone.cell? ⟨0, 0⟩ ∧
        later.2.board.cell? ⟨0, 0⟩ ≠ Snapshot.lone.cell? ⟨0, 0⟩ :=
  ⟨Script.eq_ok_of_toOption (Option.some_get Script.chilling_compiles).symm, by decide +kernel⟩

end FallingSand
