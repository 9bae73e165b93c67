import FallingSand.Proofs.Simulation.Refinement
import FallingSand.Proofs.World.Typing
import FallingSand.Simulation.Render

/-!
# Closed scripts

In a world that is closed no property is ever missing. All cells of reachable
simulations are typed: new cells are, and whatever is copied, swapped or changed
stays so. What an expression reads at a typed cell is there, in ticks, where types
change, and where colors are worked out.
-/

namespace FallingSand

open FallingSand.Engine
open FallingSand.Random (WordSource)

/-! ## What must not happen -/

/-- Whether an evaluation fails because it lacks a property or a cell. -/
def Expr.EvalError.Lacks : Expr.EvalError → Prop
  | .missingProperty _ _ => True
  | .inaccessible _ _ => True
  | .formula _ _ => False

/-- Whether an action fails because it lacks a property or a cell. -/
def Engine.Error.Lacks : Engine.Error → Prop
  | .unlocked _ => True
  | .eval error => error.Lacks
  | .noDirection => False

variable {world : World}

/-- What is known of a closed world whose numbers do not run out. -/
structure ClosedWorld (world : World) : Prop extends world.Regular where
  closed : world.Closed

theorem closedWorld_of_compile {source : List Char} {compiled : Script.Compiled}
    (h : Script.compile source = .ok compiled) (few : compiled.world.atoms.size ≤ 65536)
    (closed : compiled.world.Closed) : ClosedWorld compiled.world :=
  ⟨Script.regular_of_compile h few, closed⟩

theorem ClosedWorld.declares (closed : ClosedWorld world) (id : AtomId) {e : Expr}
    (member : e ∈ (world.atom id).exprs) : ∀ slot ∈ e.slots, world.Declares slot.name :=
  closed.closed _ (Array.mem_toList_iff.mp (world.atom_mem id)) e member

theorem knows_of_declares {allowed : Engine.Error → Prop} {name : String}
    (declared : world.Declares name) : Knows world (Cell.Typed world) allowed name := by
  intro cell _ typed missing
  have found := typed.resolve?_isSome declared
  rw [missing] at found
  cases found

/-- Typed cells, and errors that lack neither a property nor a cell. -/
def typedStandard (closed : ClosedWorld world) : Standard world where
  good := Cell.Typed world
  allowed e := ¬e.Lacks
  good_set name x typed := typed.set name x
  good_new id := .new closed.numbered closed.few id
  initial id entry member slot hslot := by
    refine ⟨(closed.shaped id).init entry member slot hslot, knows_of_declares ?_⟩
    refine closed.declares id (e := entry.2) (List.mem_append_left _ ?_) slot hslot
    exact List.mem_append_right _ (List.mem_map_of_mem member)
  allowed_formula _ _ h := h
  allowed_direction h := h

theorem ClosedWorld.suits (closed : ClosedWorld world) {config : Config} {sim : Simulation}
    (fits : config.Fits) (reachable : Reachable world config sim) :
    Flat.Suits (typedStandard closed) config := by
  refine reachable.accepts.suits fits closed.anchored ?_
  intro id rule member e he slot hslot
  refine knows_of_declares
    (closed.declares id (List.mem_append_left _ (List.mem_append_left _ ?_)) slot hslot)
  exact List.mem_flatMap.mpr ⟨rule, member, he⟩

/-! ## Colors -/

section Colors

variable {ρ α δ : Type}

/-- A drawing that never lacks anything. -/
def Expr.Sound (m : ExceptT Expr.EvalError (StateM ρ) α) : Prop :=
  ∀ source error, (m.run.run source).1 = .error error → ¬error.Lacks

namespace Expr.Sound

theorem pure (x : α) : Sound (Pure.pure x : ExceptT Expr.EvalError (StateM ρ) α) :=
  fun _ _ h => (nomatch h)

theorem bind {m : ExceptT Expr.EvalError (StateM ρ) α}
    {f : α → ExceptT Expr.EvalError (StateM ρ) δ} (first : Sound m)
    (next : ∀ x, Sound (f x)) : Sound (m >>= f) := by
  intro source error h
  rw [ExceptT.run_bind, StateT.run_bind] at h
  cases found : m.run.run source with
  | mk result after =>
    rw [found] at h
    cases result with
    | ok x => exact next x after error h
    | error e =>
      cases h
      exact first source error (congrArg Prod.fst found)

end Expr.Sound

variable [WordSource ρ] {s : Snapshot} (full : s.Full)
  (typed : ∀ p cell, s.cell? p = some cell → cell.Typed world)

include full typed

theorem sound_value {e : Expr} (declared : ∀ slot ∈ e.slots, world.Declares slot.name)
    (p : Vec) : Expr.Sound (s.value world p e : ExceptT Expr.EvalError (StateM ρ) _) := by
  intro source error h
  rcases Expr.eval_error h with ⟨slot, member, reason⟩ | ⟨fault, rfl⟩
  · exfalso
    unfold look at reason
    dsimp only at reason
    cases inside : Board.inGrid s (p + Orientation.identity.apply slot.offset) with
    | false =>
      rw [inside] at reason
      rcases reason with ⟨impossible, -⟩ | ⟨impossible, -⟩ <;> cases impossible
    | true =>
      obtain ⟨cell, found⟩ := full.exists_cell inside
      -- The cell is typed, so it has whatever the expression reads.
      have known := (typed _ cell found).resolve?_isSome (declared slot member)
      obtain ⟨x, value⟩ := Option.isSome_iff_exists.mp known
      have board : Board.cell? s (p + Orientation.identity.apply slot.offset) = some cell := found
      rw [inside, board] at reason
      simp only [value] at reason
      rcases reason with ⟨impossible, -⟩ | ⟨impossible, -⟩ <;> cases impossible
  · exact fun h => h

theorem sound_dynamicColor {rules : List ColorRule}
    (declared : ∀ rule ∈ rules, ∀ e ∈ [rule.condition, rule.r, rule.g, rule.b],
      ∀ slot ∈ e.slots, world.Declares slot.name) (p : Vec) :
    Expr.Sound (s.dynamicColor world p rules : ExceptT Expr.EvalError (StateM ρ) Color) := by
  induction rules with
  | nil => exact .pure _
  | cons rule rest ih =>
    have known {e : Expr} (h : e ∈ [rule.condition, rule.r, rule.g, rule.b]) :=
      declared rule List.mem_cons_self e h
    have channel {e : Expr} (h : e ∈ [rule.condition, rule.r, rule.g, rule.b]) :
        Expr.Sound (s.channel world p e : ExceptT Expr.EvalError (StateM ρ) UInt8) := by
      unfold Snapshot.channel
      refine (sound_value full typed (known h) p).bind ?_
      intro value
      cases value <;> exact .pure _
    unfold Snapshot.dynamicColor
    refine (sound_value full typed (known (by simp)) p).bind ?_
    intro value
    split
    · refine (channel (by simp)).bind ?_
      intro r
      refine (channel (by simp)).bind ?_
      intro g
      exact (channel (by simp)).bind fun b => .pure _
    · exact ih fun other member => declared other (List.mem_cons_of_mem _ member)

theorem sound_color (closed : ClosedWorld world) (p : Vec) :
    Expr.Sound (s.color world p : ExceptT Expr.EvalError (StateM ρ) Color) := by
  unfold Snapshot.color
  cases s.cell? p with
  | none => exact .pure _
  | some cell =>
    dsimp only
    cases (world.atom cell.atom).color with
    | fixed color => exact .pure _
    | dynamic =>
      refine sound_dynamicColor full typed ?_ p
      intro rule member e he
      refine closed.declares cell.atom (List.mem_append_right _ ?_)
      exact List.mem_flatMap.mpr ⟨rule, member, he⟩

end Colors

/-! ## Nothing is ever missing -/

/-- A script that reads no property which some cell may lack never fails for want of a
property, nor for want of a cell: not when the simulation starts, not in any operation on
a simulation that can be reached, and not when the colors of a snapshot are worked out. -/
theorem closed_never_lacks {source : List Char} {compiled : Script.Compiled}
    (h : Script.compile source = .ok compiled) (few : compiled.world.atoms.size ≤ 65536)
    (closed : compiled.world.Closed) {config : Config} (fits : config.Fits) {ρ : Type}
    [WordSource ρ] (words : ρ) :
    (∀ e, Simulation.start compiled.world config words = .error (.action e) → ¬e.Lacks) ∧
    ∀ sim, Reachable compiled.world config sim →
      (∀ target e, ((Simulation.tick target).run.run ⟨sim, words⟩).1 = .error e → ¬e.Lacks) ∧
      (∀ p id, (compiled.world.atom? id).isSome →
        ∀ e, ((Simulation.place p id).run.run ⟨sim, words⟩).1 = .error e → ¬e.Lacks) ∧
      (∀ e, (Simulation.clear.run.run ⟨sim, words⟩).1 = .error e → ¬e.Lacks) ∧
      ∀ buffer : Snapshot, buffer.Full → ∀ p e,
        (((sim.snapshotInto buffer).color compiled.world p).run.run words).1 = .error e →
          ¬e.Lacks := by
  have known := closedWorld_of_compile h few closed
  refine ⟨fun e failed => allowed_of_start (S := typedStandard known) fits failed, ?_⟩
  intro sim reachable
  have suits := known.suits fits reachable
  obtain ⟨s, flat⟩ := reachable.exists_flat fits suits
  refine ⟨?_, ?_, ?_, ?_⟩
  · intro target e failed
    exact flat.allowed_of_error (Flat.coupled_tick suits target) failed
  · intro p id _ e failed
    exact flat.allowed_of_error (Flat.coupled_place p id) failed
  · intro e failed
    exact flat.allowed_of_error Flat.coupled_clear failed
  · intro buffer full p e failed
    rw [flat.snapshotInto_eq full] at failed
    exact sound_color flat.same.full flat.same.good known p words e failed

/-! ## Sand that reads defaults and properties -/

/-- A script that reads nothing but a property that both of its types declare. -/
def Script.warming : List Char :=
  ["atom Empty \x7b", "section property \x7b", "def heat 2", "\x7d", "\x7d",
   "atom Sand \x7b", "section property \x7b", "def heat 3", "def color dynamic", "\x7d",
   "section update \x7b",
   "match (0, 0, 1, 2) sym(x) \x7b", "pattern", "x", "_", "eval [heat] > [heat - 0, 1]", "\x7d",
   "-> \x7b", "def under = (0, 1)", "pattern", "under", "x", "set [heat - 0, 1] = [heat]", "\x7d",
   "\x7d",
   "section color \x7b", "[heat] > 2 => 9 * [heat], 0, 0", "\x7d",
   "\x7d"].flatMap fun line => line.toList ++ ['\n']

theorem Script.warming_compiles : (compile warming).toOption.isSome = true := by decide +kernel

def Script.warmed : Compiled := (compile warming).toOption.get warming_compiles

theorem Script.compile_warming : compile warming = .ok warmed :=
  eq_ok_of_toOption (Option.some_get warming_compiles).symm

theorem warm_starts :
    (Simulation.start Script.warmed.world wideConfig (⟨0⟩ : Random.SplitMix)).toOption.isSome =
      true := by
  decide +kernel

/-- The simulation with warm sand in the upper rows of one end. -/
def warmHeap : Simulation :=
  (Operation.place ⟨0, -1⟩ 1).after
    ((Simulation.start Script.warmed.world wideConfig (⟨0⟩ : Random.SplitMix)).toOption.get
      warm_starts) (⟨1⟩ : Random.SplitMix)

theorem warmHeap_reachable : Reachable Script.warmed.world wideConfig warmHeap := by
  have started := Script.eq_ok_of_toOption (Option.some_get warm_starts).symm
  have known : (Script.warmed.world.atom? 1).isSome = true := by decide +kernel
  exact .step _ (.start started) known

theorem sunk_closed : Script.sunk.world.atoms.size ≤ 65536 ∧ Script.sunk.world.Closed := by
  decide +kernel

theorem warmed_closed : Script.warmed.world.atoms.size ≤ 65536 ∧ Script.warmed.world.Closed := by
  decide +kernel

/-- At the lower end of either heap the only rule fits, and its condition reads a default in the
one and the heat of both cells in the other. -/
theorem heaps_never_lack :
    ((Script.sunk.world.atom 1).allRules.map fun rule =>
      (rule.conditions.flatMap (·.slots.map (·.name)),
        ((fitsAt Script.sunk.world (Script.sunk.world.atom 1) rule ⟨0, 1⟩ .identity).run.run
          (⟨twoHeaps.snapshot, ⟨7⟩⟩ : State Snapshot Random.SplitMix)).1.toOption)) =
      [(["weight"], some true)] ∧
    (∀ target e, ((Simulation.tick target).run.run
      (⟨twoHeaps, ⟨7⟩⟩ : State Simulation Random.SplitMix)).1 = .error e → ¬e.Lacks) ∧
    ((Script.warmed.world.atom 1).allRules.map fun rule =>
      (rule.conditions.flatMap (·.slots.map (·.name)),
        ((fitsAt Script.warmed.world (Script.warmed.world.atom 1) rule ⟨0, 1⟩ .identity).run.run
          (⟨warmHeap.snapshot, ⟨7⟩⟩ : State Snapshot Random.SplitMix)).1.toOption)) =
      [(["heat", "heat"], some true)] ∧
    (∀ target e, ((Simulation.tick target).run.run
      (⟨warmHeap, ⟨7⟩⟩ : State Simulation Random.SplitMix)).1 = .error e → ¬e.Lacks) ∧
    ∀ p e, (((warmHeap.snapshotInto {}).color Script.warmed.world p).run.run
      (⟨7⟩ : Random.SplitMix)).1 = .error e → ¬e.Lacks := by
  obtain ⟨-, sand⟩ := closed_never_lacks Script.compile_sinking sunk_closed.1 sunk_closed.2
    wideConfig_fits (⟨7⟩ : Random.SplitMix)
  obtain ⟨-, warm⟩ := closed_never_lacks Script.compile_warming warmed_closed.1 warmed_closed.2
    wideConfig_fits (⟨7⟩ : Random.SplitMix)
  obtain ⟨ticks, -, -, colors⟩ := warm warmHeap warmHeap_reachable
  exact ⟨by decide +kernel, (sand twoHeaps twoHeaps_reachable).1, by decide +kernel, ticks,
    colors {} Snapshot.full_empty⟩

end FallingSand
