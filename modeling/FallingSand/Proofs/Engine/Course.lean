import FallingSand.Engine.Tick
import FallingSand.Proofs.Board.Snapshot
import FallingSand.Proofs.Engine.Coupling
import FallingSand.Proofs.Script.Shape

/-!
# The course of a tick

What happens in a tick is a list of events: rules are tried, and at times a movement takes
its turn. All of them are events for the type that the target had at first, whatever it is
by then (`Happens`). First come the rules that are always tried. Then either one movement is
tried or the other rules are, until one of them stops the tick (`Chosen`). The outcome of the
tick can be read off the events.
-/

namespace FallingSand

namespace Engine

open FallingSand.Random (WordSource chance index shuffle)

/-! ## Events -/

/-- How a rule fares that is tried. -/
inductive Trial where
  /-- Chance is against it. -/
  | skipped
  /-- In some orientation it does not fit, or its conditions do not hold. -/
  | unmatched (o : Orientation)
  /-- It applies in some orientation. -/
  | applied (o : Orientation)

/-- What happens in a tick. -/
inductive Event where
  | tried (rule : Rule) (trial : Trial)
  | moved (extension : Extension) (swapped : Bool)

namespace Event

/-- The rule that is tried. -/
def rule? : Event → Option Rule
  | .tried rule _ => some rule
  | .moved _ _ => none

/-- Whether a rule or a movement applied. -/
def applies : Event → Bool
  | .tried _ (.applied _) => true
  | .tried _ _ => false
  | .moved _ swapped => swapped

/-- Where to look next, mirrored as the rule that applied. -/
def shift? : Event → Option Vec
  | .tried rule (.applied o) => rule.shift.map o.apply
  | _ => none

/-- Whether a rule applied that does not let others follow. -/
def stops : Event → Bool
  | .tried rule (.applied _) => !rule.nonBreak
  | _ => false

theorem shift?_eq_none {event : Event} (idle : event.applies = false) : event.shift? = none := by
  cases event with
  | tried rule trial =>
    cases trial with
    | applied o => cases idle
    | skipped => rfl
    | unmatched o => rfl
  | moved extension swapped => rfl

end Event

/-- An outcome after one more event. -/
def Outcome.after (outcome : Outcome) (event : Event) : Outcome :=
  if event.applies then outcome.record event.shift? else outcome

/-- An outcome counts the events that applied, and keeps the last shift. -/
theorem Outcome.foldl_after (outcome : Outcome) (events : List Event) :
    events.foldl Outcome.after outcome =
      ⟨outcome.applied + UInt32.ofNat (events.countP Event.applies),
        (events.filterMap Event.shift?).getLast?.or outcome.shift⟩ := by
  induction events generalizing outcome with
  | nil => simp
  | cons event rest ih =>
    rw [List.foldl_cons, ih, after]
    cases applies : event.applies with
    | false => simp [applies, Event.shift?_eq_none applies]
    | true =>
      have count : outcome.applied + 1 + UInt32.ofNat (rest.countP Event.applies) =
          outcome.applied + UInt32.ofNat (rest.countP Event.applies + 1) := by
        rw [UInt32.ofNat_add, UInt32.add_assoc, UInt32.add_comm 1]
        rfl
      have last : (rest.filterMap Event.shift?).getLast?.or (event.shift?.or outcome.shift) =
          ((event :: rest).filterMap Event.shift?).getLast?.or outcome.shift := by
        cases shift : event.shift? with
        | none => simp [shift]
        | some v =>
          cases later : (rest.filterMap Event.shift?).getLast? <;>
            simp [shift, List.getLast?_cons, later]
      rw [if_pos rfl, record, List.countP_cons_of_pos applies, ← count, ← last]

section

variable {β ρ : Type} [Board β] [WordSource ρ] (world : World) (owner : AtomType) (target : Vec)

/-- An event for a type at a target, with the states before and after it. -/
inductive Happens : Event → State β ρ → State β ρ → Prop
  | skipped {rule : Rule} {s t : State β ρ} :
      exec (draw (chance rule.probability)) s = (.ok false, t) →
      Happens (.tried rule .skipped) s t
  | unmatched {rule : Rule} {o : Orientation} {s ready turned t : State β ρ} :
      exec (draw (chance rule.probability)) s = (.ok true, ready) →
      exec (draw (Orientation.random rule.symmetry)) ready = (.ok o, turned) →
      exec (applyRule world owner rule target o) turned = (.ok false, t) →
      Happens (.tried rule (.unmatched o)) s t
  | applied {rule : Rule} {o : Orientation} {s ready turned t : State β ρ} :
      exec (draw (chance rule.probability)) s = (.ok true, ready) →
      exec (draw (Orientation.random rule.symmetry)) ready = (.ok o, turned) →
      exec (applyRule world owner rule target o) turned = (.ok true, t) →
      Happens (.tried rule (.applied o)) s t
  | moved {extension : Extension} {swapped : Bool} {s t : State β ρ} :
      exec (move world owner extension target) s = (.ok swapped, t) →
      Happens (.moved extension swapped) s t

/-- Events that follow one another, with nothing between them. -/
inductive Course : State β ρ → List Event → State β ρ → Prop
  | nil (s : State β ρ) : Course s [] s
  | cons {event : Event} {rest : List Event} {s mid t : State β ρ} :
      Happens world owner target event s mid → Course mid rest t → Course s (event :: rest) t

/-- Trials that go on until one of them stops them or no rule is left; with the rules that are
left. -/
inductive Until : List Event → List Rule → Prop
  | exhausted {events : List Event} : (∀ event ∈ events, event.stops = false) → Until events []
  | stopped (before : List Event) (last : Event) (rest : List Rule) :
      (∀ event ∈ before, event.stops = false) → last.stops = true →
      Until (before ++ [last]) rest

/-- What a tick does after the rules that are always tried: nothing where the type has no other
rules and no movements, or else, as a draw decides, one movement, or the other rules in some
order until one of them stops it. -/
inductive Chosen : State β ρ → List Event → State β ρ → Prop
  | nothing {s : State β ρ} : owner.rules = #[] → owner.extensions = #[] → Chosen s [] s
  | movement {n k : Nat} {extension : Extension} {swapped : Bool} {s mid again t : State β ρ} :
      exec (draw (index (owner.rules.size + owner.extensions.size))) s = (.ok n, mid) →
      owner.rules.size ≤ n →
      exec (draw (index owner.extensions.size)) mid = (.ok k, again) →
      owner.extensions[k]? = some extension →
      Happens world owner target (.moved extension swapped) again t →
      Chosen s [.moved extension swapped] t
  | rules {n : Nat} {order : Array Rule} {events : List Event} {rest : List Rule}
      {s mid again t : State β ρ} :
      exec (draw (index (owner.rules.size + owner.extensions.size))) s = (.ok n, mid) →
      n < owner.rules.size →
      exec (draw (shuffle owner.rules)) mid = (.ok order, again) → order.Perm owner.rules →
      events.map Event.rule? ++ rest.map some = order.toList.map some → Until events rest →
      Course world owner target again events t → Chosen s events t

end

namespace Until

variable {event : Event} {events : List Event} {rules : List Rule}

theorem cons (goes : event.stops = false) (tail : Until events rules) :
    Until (event :: events) rules := by
  cases tail with
  | exhausted going =>
    exact .exhausted (List.forall_mem_cons.mpr ⟨goes, going⟩)
  | stopped before last _ going stop =>
    exact .stopped (event :: before) last rules (List.forall_mem_cons.mpr ⟨goes, going⟩) stop

theorem countP_stops_le_one (trials : Until events rules) : events.countP Event.stops ≤ 1 := by
  have zero {events : List Event} (going : ∀ event ∈ events, event.stops = false) :
      events.countP Event.stops = 0 := by
    rw [List.countP_eq_zero]
    intro event member
    rw [going event member]
    exact Bool.false_ne_true
  cases trials with
  | exhausted going => exact (zero going).trans_le (Nat.zero_le 1)
  | stopped _ _ _ going stop =>
    rw [List.countP_append, zero going, List.countP_singleton, stop]
    rfl

end Until

/-! ## Trials -/

section

variable {β ρ : Type} [Board β] [WordSource ρ] {world : World} {owner : AtomType} {target : Vec}
  {s t : State β ρ}

theorem attempt_ok {rule : Rule} {came : Attempt}
    (h : exec (attempt world owner rule target) s = (.ok came, t)) :
    ∃ trial, Happens world owner target (.tried rule trial) s t ∧
      came = match trial with
        | .applied o => .applied (rule.shift.map o.apply)
        | _ => .failed := by
  obtain ⟨wanted, ready, chosen, rest⟩ := exec_bind_ok h
  cases wanted with
  | false =>
    cases rest
    exact ⟨.skipped, .skipped chosen, rfl⟩
  | true =>
    obtain ⟨o, turned, oriented, rest⟩ := exec_bind_ok rest
    obtain ⟨applies, ended, applied, rest⟩ := exec_bind_ok rest
    cases applies with
    | false =>
      cases rest
      exact ⟨.unmatched o, .unmatched chosen oriented applied, rfl⟩
    | true =>
      cases rest
      exact ⟨.applied o, .applied chosen oriented applied, rfl⟩

theorem tryAll_ok {rules : List Rule} {outcome final : Outcome}
    (h : exec (tryAll world owner target outcome rules) s = (.ok final, t)) :
    ∃ events, Course world owner target s events t ∧
      events.map Event.rule? = rules.map some ∧ final = events.foldl Outcome.after outcome := by
  induction rules generalizing outcome s with
  | nil =>
    cases h
    exact ⟨[], .nil _, rfl, rfl⟩
  | cons rule rest ih =>
    obtain ⟨came, mid, attempted, later⟩ := exec_bind_ok h
    obtain ⟨trial, happens, rfl⟩ := attempt_ok attempted
    have next : exec (tryAll world owner target (outcome.after (.tried rule trial)) rest) mid =
        (.ok final, t) := by
      cases trial <;> exact later
    obtain ⟨events, course, rules, final⟩ := ih next
    exact ⟨.tried rule trial :: events, .cons happens course, congrArg (some rule :: ·) rules,
      final⟩

theorem tryUntil_ok {rules : List Rule} {outcome final : Outcome}
    (h : exec (tryUntil world owner target outcome rules) s = (.ok final, t)) :
    ∃ events rest, Course world owner target s events t ∧
      events.map Event.rule? ++ rest.map some = rules.map some ∧ Until events rest ∧
      final = events.foldl Outcome.after outcome := by
  induction rules generalizing outcome s with
  | nil =>
    cases h
    exact ⟨[], [], .nil _, rfl, .exhausted (fun _ member => nomatch member), rfl⟩
  | cons rule rest ih =>
    obtain ⟨came, mid, attempted, later⟩ := exec_bind_ok h
    obtain ⟨trial, happens, rfl⟩ := attempt_ok attempted
    cases stops : (Event.tried rule trial).stops with
    | false =>
      have next : exec (tryUntil world owner target (outcome.after (.tried rule trial)) rest) mid =
          (.ok final, t) := by
        cases trial with
        | skipped => exact later
        | unmatched o => exact later
        | applied o =>
          have follows : rule.nonBreak = true := by simpa [Event.stops] using stops
          dsimp only at later
          rw [if_pos follows] at later
          exact later
      obtain ⟨events, left, course, rules, trials, final⟩ := ih next
      exact ⟨.tried rule trial :: events, left, .cons happens course,
        congrArg (some rule :: ·) rules, trials.cons stops, final⟩
    | true =>
      obtain ⟨o, rfl⟩ : ∃ o, trial = .applied o := by
        cases trial with
        | applied o => exact ⟨o, rfl⟩
        | skipped => cases stops
        | unmatched o => cases stops
      have breaks : ¬rule.nonBreak = true := by simpa [Event.stops] using stops
      dsimp only at later
      rw [if_neg breaks] at later
      cases later
      exact ⟨[.tried rule (.applied o)], rest, .cons happens (.nil _), rfl,
        .stopped [] _ rest (fun _ member => nomatch member) stops, rfl⟩

/-! ## Choices -/

theorem moveOnce_ok {outcome final : Outcome} (moving : 0 < owner.extensions.size)
    (h : exec (moveOnce world owner target outcome) s = (.ok final, t)) :
    ∃ (k : Nat) (extension : Extension) (swapped : Bool) (again : State β ρ),
      exec (draw (index owner.extensions.size)) s = (.ok k, again) ∧
      owner.extensions[k]? = some extension ∧
      Happens world owner target (.moved extension swapped) again t ∧
      final = outcome.after (.moved extension swapped) := by
  obtain ⟨k, again, drawn, rest⟩ := exec_bind_ok h
  have bound : k < owner.extensions.size := by
    rw [← (exec_draw_ok drawn).1]
    exact Random.index_lt moving s.source
  have found := Array.getElem?_eq_getElem bound
  rw [found] at rest
  obtain ⟨swapped, ended, moved, rest⟩ := exec_bind_ok rest
  refine ⟨k, _, swapped, again, drawn, found, ?_⟩
  cases swapped with
  | false =>
    cases rest
    exact ⟨.moved moved, rfl⟩
  | true =>
    cases rest
    exact ⟨.moved moved, rfl⟩

/-- What is left of a tick after the rules that are always tried. -/
def choose (world : World) (owner : AtomType) (target : Vec) (outcome : Outcome) :
    Action β ρ Outcome := do
  let choices := owner.rules.size + owner.extensions.size
  if choices = 0 then return outcome
  if (← draw (index choices)) < owner.rules.size then
    let rules ← draw (shuffle owner.rules)
    tryUntil world owner target outcome rules.toList
  else moveOnce world owner target outcome

theorem choose_ok {outcome final : Outcome}
    (h : exec (choose world owner target outcome) s = (.ok final, t)) :
    ∃ chosen, Chosen world owner target s chosen t ∧
      final = chosen.foldl Outcome.after outcome := by
  unfold choose at h
  dsimp only at h
  by_cases idle : owner.rules.size + owner.extensions.size = 0
  · rw [if_pos idle] at h
    cases h
    refine ⟨[], .nothing ?_ ?_, rfl⟩
    · exact Array.size_eq_zero_iff.mp (by omega)
    · exact Array.size_eq_zero_iff.mp (by omega)
  rw [if_neg idle] at h
  obtain ⟨n, mid, drawn, rest⟩ := exec_bind_ok h
  have bound : n < owner.rules.size + owner.extensions.size := by
    rw [← (exec_draw_ok drawn).1]
    exact Random.index_lt (Nat.pos_of_ne_zero idle) s.source
  by_cases early : n < owner.rules.size
  · rw [if_pos early] at rest
    obtain ⟨order, again, shuffled, rest⟩ := exec_bind_ok rest
    have perm : order.Perm owner.rules := by
      rw [← (exec_draw_ok shuffled).1]
      exact Random.shuffle_perm owner.rules mid.source
    obtain ⟨events, left, course, tried, trials, final⟩ := tryUntil_ok rest
    exact ⟨events, .rules drawn early shuffled perm tried trials course, final⟩
  · rw [if_neg early] at rest
    obtain ⟨k, extension, swapped, again, picked, found, happens, final⟩ :=
      moveOnce_ok (by omega) rest
    exact ⟨[.moved extension swapped],
      .movement drawn (Nat.le_of_not_lt early) picked found happens, final⟩

/-! ## Chances -/

/-- A rule without a chance is always skipped. -/
theorem Happens.skipped_of_zero {rule : Rule} {trial : Trial}
    (happens : Happens world owner target (.tried rule trial) s t)
    (zero : (rule.probability == 0.0) = true) : trial = .skipped := by
  have against {ready : State β ρ} (chosen : exec (draw (chance rule.probability)) s =
      (.ok true, ready)) : False := by
    have skipped := Random.chance_zero zero s.source
    rw [(exec_draw_ok chosen).1] at skipped
    cases skipped
  cases happens with
  | skipped _ => rfl
  | unmatched chosen _ _ => exact (against chosen).elim
  | applied chosen _ _ => exact (against chosen).elim

theorem Course.happens {events : List Event} (course : Course world owner target s events t)
    {event : Event} (member : event ∈ events) :
    ∃ before after : State β ρ, Happens world owner target event before after := by
  induction course with
  | nil => cases member
  | cons first _ ih =>
    rcases List.mem_cons.mp member with rfl | member
    · exact ⟨_, _, first⟩
    · exact ih member

theorem Chosen.happens {events : List Event} (chosen : Chosen world owner target s events t)
    {event : Event} (member : event ∈ events) :
    ∃ before after : State β ρ, Happens world owner target event before after := by
  cases chosen with
  | nothing _ _ => cases member
  | movement _ _ _ _ happens =>
    rw [List.mem_singleton.mp member]
    exact ⟨_, _, happens⟩
  | rules _ _ _ _ _ _ course => exact course.happens member

/-- No more than one rule stops a tick. -/
theorem Chosen.countP_stops_le_one {events : List Event}
    (chosen : Chosen world owner target s events t) : events.countP Event.stops ≤ 1 := by
  cases chosen with
  | nothing _ _ => exact Nat.zero_le 1
  | movement _ _ _ _ _ => exact Nat.zero_le 1
  | rules _ _ _ _ _ trials _ => exact trials.countP_stops_le_one

end

end Engine

open Engine
open FallingSand.Random (WordSource shuffle)

/-- A tick that goes through is a course of events for the type that the target had at first:
first the rules that are always tried, each once, and then those that are chosen. -/
theorem tick_course {β ρ : Type} [Board β] [WordSource ρ] (world : World) {board : β}
    {words : ρ} {target : Vec} (inside : Board.inGrid board target = true) {outcome : Outcome}
    {final : State β ρ}
    (h : (tick world target).run.run ⟨board, words⟩ = (.ok outcome, final)) :
    ∃ cell, Board.cell? board target = some cell ∧
      let owner := world.atom cell.atom
      ∃ (order : Array Rule) (always chosen : List Event) (start mid : State β ρ),
        exec (draw (shuffle owner.alwaysRules)) ⟨board, words⟩ = (.ok order, start) ∧
        order.Perm owner.alwaysRules ∧ always.map Event.rule? = order.toList.map some ∧
        Course world owner target start always mid ∧
        Chosen world owner target mid chosen final ∧ chosen.countP Event.stops ≤ 1 ∧
        (∀ rule trial, .tried rule trial ∈ always ++ chosen →
          (rule.probability == 0.0) = true → trial = .skipped) ∧
        outcome.applied = UInt32.ofNat ((always ++ chosen).countP Event.applies) ∧
        outcome.shift = ((always ++ chosen).filterMap Event.shift?).getLast? := by
  obtain ⟨there, _, asked, rest⟩ := exec_bind_ok h
  cases asked
  rw [show Board.inGrid board target = true from inside] at rest
  obtain ⟨cell, _, looked, rest⟩ := exec_bind_ok rest
  obtain ⟨found, rfl⟩ := exec_read_ok looked
  refine ⟨cell, found, ?_⟩
  intro owner
  obtain ⟨order, start, shuffled, rest⟩ := exec_bind_ok rest
  have perm : order.Perm owner.alwaysRules := by
    rw [← (exec_draw_ok shuffled).1]
    exact Random.shuffle_perm owner.alwaysRules words
  obtain ⟨after, mid, tried, rest⟩ := exec_bind_ok rest
  obtain ⟨always, course, rules, rfl⟩ := tryAll_ok tried
  obtain ⟨chosen, choice, rfl⟩ := choose_ok rest
  refine ⟨order, always, chosen, start, mid, shuffled, perm, rules, course, choice,
    choice.countP_stops_le_one, ?_, ?_⟩
  · intro rule trial member
    obtain ⟨before, after, happens⟩ : ∃ before after : State β ρ,
        Happens world owner target (.tried rule trial) before after := by
      rcases List.mem_append.mp member with early | late
      · exact course.happens early
      · exact choice.happens late
    exact happens.skipped_of_zero
  · rw [← List.foldl_append, Outcome.foldl_after]
    simp

/-- A script with a type that drops through empty cells and says where it went. -/
def Script.dropping : List Char :=
  ["atom Empty \x7b", "\x7d",
   "atom Drop \x7b", "section update \x7b",
   "match (0, 0, 1, 2) \x7b", "pattern", "x", "_", "\x7d",
   "-> \x7b", "pattern", "_", "x", "shift(0, 1)", "\x7d",
   "\x7d", "\x7d"].flatMap fun line => line.toList ++ ['\n']

theorem Script.dropping_compiles : (compile dropping).toOption.isSome = true := by decide +kernel

def Script.dropped : Compiled := (compile dropping).toOption.get dropping_compiles

theorem dropped_tick_course :
    ∃ final : State Snapshot Random.SplitMix,
      (tick Script.dropped.world ⟨0, 0⟩).run.run ⟨Snapshot.pile, ⟨7⟩⟩ =
        (.ok ⟨1, some ⟨0, 1⟩⟩, final) ∧
      ∃ cell, Board.cell? Snapshot.pile ⟨0, 0⟩ = some cell ∧
      ∃ (always chosen : List Event) (mid : State Snapshot Random.SplitMix),
        Chosen Script.dropped.world (Script.dropped.world.atom cell.atom) ⟨0, 0⟩ mid chosen final ∧
        1 = UInt32.ofNat ((always ++ chosen).countP Event.applies) ∧
        some ⟨0, 1⟩ = ((always ++ chosen).filterMap Event.shift?).getLast? := by
  have succeeds : ((tick Script.dropped.world ⟨0, 0⟩).run.run
      (⟨Snapshot.pile, ⟨7⟩⟩ : State Snapshot Random.SplitMix)).1.toOption =
        some ⟨1, some ⟨0, 1⟩⟩ := by
    decide +kernel
  obtain ⟨final, ended⟩ : ∃ final, (tick Script.dropped.world ⟨0, 0⟩).run.run
      (⟨Snapshot.pile, ⟨7⟩⟩ : State Snapshot Random.SplitMix) =
        (.ok ⟨1, some ⟨0, 1⟩⟩, final) :=
    ⟨_, Prod.ext (Script.eq_ok_of_toOption succeeds) rfl⟩
  obtain ⟨cell, found, -, always, chosen, -, mid, -, -, -, -, choice, -, -, applied, shift⟩ :=
    tick_course Script.dropped.world (by decide) ended
  exact ⟨final, ended, cell, found, always, chosen, mid, choice, applied, shift⟩

end FallingSand
