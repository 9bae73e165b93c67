import FallingSand.Engine.Effect
import FallingSand.Engine.Matching
import FallingSand.Engine.Movement

/-!
# Ticks

A tick lets the cell at one position act once. All rules that are always tried
come first, in a random order. Then a number decides whether a movement takes
its turn or the other rules do; those are tried in a random order until one
applies that does not let others follow.
-/

namespace FallingSand.Engine

open FallingSand.Random (WordSource chance index shuffle)

/-- What came of a tick. -/
structure Outcome where
  applied : UInt32 := 0
  /-- Where to look next, as the last rule that applied and says so says it. -/
  shift : Option Vec := none
  deriving DecidableEq, Repr, Inhabited

/-- One more rule or movement that applied. -/
def Outcome.record (outcome : Outcome) (shift : Option Vec) : Outcome :=
  ⟨outcome.applied + 1, shift.or outcome.shift⟩

/-- What came of trying a rule. -/
inductive Attempt where
  | failed
  | applied (shift : Option Vec)
  deriving DecidableEq, Repr

variable {β ρ : Type} [Board β] [WordSource ρ]

/-- Applies a rule of `owner` in an orientation if it fits and its conditions
hold, and tells whether they do. -/
def applyRule (world : World) (owner : AtomType) (rule : Rule) (target : Vec)
    (o : Orientation) : Action β ρ Bool := do
  if !(← fitsAt world owner rule target o) then return false
  if !(← rule.conditions.allM fun condition => holds world condition target o) then return false
  runSteps world rule target o
  return true

/-- Tries a rule: by chance, in a random orientation. -/
def attempt (world : World) (owner : AtomType) (rule : Rule) (target : Vec) :
    Action β ρ Attempt := do
  if !(← draw (chance rule.probability)) then return .failed
  let o ← draw (Orientation.random rule.symmetry)
  if ← applyRule world owner rule target o then return .applied (rule.shift.map o.apply)
  else return .failed

def tryAll (world : World) (owner : AtomType) (target : Vec) (outcome : Outcome) :
    List Rule → Action β ρ Outcome
  | [] => return outcome
  | rule :: rest => do
    match ← attempt world owner rule target with
    | .failed => tryAll world owner target outcome rest
    | .applied shift => tryAll world owner target (outcome.record shift) rest

/-- Tries the rules of a list up to the first that applies and does not let others
follow. -/
def tryUntil (world : World) (owner : AtomType) (target : Vec) (outcome : Outcome) :
    List Rule → Action β ρ Outcome
  | [] => return outcome
  | rule :: rest => do
    match ← attempt world owner rule target with
    | .failed => tryUntil world owner target outcome rest
    | .applied shift =>
      if rule.nonBreak then tryUntil world owner target (outcome.record shift) rest
      else return outcome.record shift

def moveOnce (world : World) (owner : AtomType) (target : Vec) (outcome : Outcome) :
    Action β ρ Outcome := do
  let n ← draw (index owner.extensions.size)
  match owner.extensions[n]? with
  | none => return outcome
  | some extension =>
    if ← move world owner extension target then return outcome.record none
    else return outcome

/-- Lets the cell at a target act; outside the grid nothing happens. -/
def tick (world : World) (target : Vec) : Action β ρ Outcome := do
  if !(← inGrid target) then return {}
  let owner := world.atom (← read target).atom
  let always ← draw (shuffle owner.alwaysRules)
  let outcome ← tryAll world owner target {} always.toList
  let choices := owner.rules.size + owner.extensions.size
  if choices = 0 then return outcome
  if (← draw (index choices)) < owner.rules.size then
    let rules ← draw (shuffle owner.rules)
    tryUntil world owner target outcome rules.toList
  else moveOnce world owner target outcome

end FallingSand.Engine
