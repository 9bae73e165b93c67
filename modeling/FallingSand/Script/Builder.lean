import FallingSand.Script.Statement
import FallingSand.World.Atom

/-!
# The state between two lines

A script is compiled line by line, and `Builder` is all that is known between
two lines: what is declared so far, which block the next line stands in, and
the rule that is being written. An atom and a rule set cannot be open together,
a section is open only inside an atom, and a pattern only inside a block of a
rule; the types leave no room for anything else.

Lines are counted from zero, without those that say nothing, so the state does
not depend on the layout of the script.
-/

namespace FallingSand.Script

inductive Part where
  | property | definition | update | init | color
  deriving DecidableEq, Repr

def Part.ofName? : String → Option Part
  | "property" => some .property
  | "definition" => some .definition
  | "update" => some .update
  | "init" => some .init
  | "color" => some .color
  | _ => none

/-- The block of a rule that the next line stands in. -/
inductive Phase where
  /-- Between the match block and the effect block. -/
  | between
  | matching
  | effect
  deriving DecidableEq, Repr

/-- A rule that is being written. -/
structure Draft where
  rule : Rule
  phase : Phase := .between
  /-- Whether the open block has its pattern. -/
  patterned : Bool := false
  /-- How many rows the pattern still lacks. -/
  rowsLeft : Nat := 0

/-- The block that is open around the rules and statements that follow. -/
inductive Scope where
  | file
  | atom (atom : AtomType) (part : Option Part)
  | ruleset (name : String) (rules : Array Rule)

/-- What is known between two lines. -/
structure Builder where
  /-- The atoms whose blocks are closed. -/
  atoms : Array AtomType := #[]
  /-- The rule sets whose blocks are closed. -/
  rulesets : Table (Array Rule) := {}
  /-- The sets for later atoms, in order. -/
  globals : List (String × List SetMember) := []
  defaults : Properties := {}
  preload : List ColorRange := []
  scope : Scope := .file
  draft : Option Draft := none
  /-- The rule that was finished last in the open block. -/
  previous : Option Rule := none
  nextId : Nat := 0
  /-- The line of the last effect block, or of its pattern if it has one. -/
  effectLine : Nat := 0
  /-- Effect symbols that the rule does not bind, each with a line. -/
  references : List (Nat × String) := []
  warnings : List Warning := []

namespace Builder

def inRuleset (b : Builder) : Bool :=
  match b.scope with
  | .ruleset _ _ => true
  | _ => false

def inFile (b : Builder) : Bool :=
  match b.scope with
  | .file => true
  | _ => false

def part? (b : Builder) : Option Part :=
  match b.scope with
  | .atom _ part => part
  | _ => none

/-- The rules that go by a name: those of the rule set, or else the normal rules
of the atom. Blocks that are still open count too. -/
def rulesNamed? (b : Builder) (name : String) : Option (Array Rule) :=
  let closedAtom := (b.atoms.find? (·.name == name)).map (·.rules)
  match b.scope with
  | .ruleset openName rules =>
    if openName = name then some rules else (b.rulesets.get? name).or closedAtom
  | .atom atom _ =>
    (b.rulesets.get? name).or
      (closedAtom.or (if atom.name = name then some atom.rules else none))
  | .file => (b.rulesets.get? name).or closedAtom

def push (b : Builder) (rule : Rule) : Builder :=
  let scope := match b.scope with
    | .file => .file
    | .ruleset name rules => .ruleset name (rules.push rule)
    | .atom atom part =>
      if rule.always then
        .atom { atom with alwaysRules := atom.alwaysRules.push rule } part
      else .atom { atom with rules := atom.rules.push rule } part
  { b with scope, previous := some rule }

def pushNew (b : Builder) (rule : Rule) : Builder :=
  push { b with nextId := b.nextId + 1 } { rule with id := b.nextId }

/-- The symbols that the effect pattern of a rule places and the rule does not
bind. -/
def unboundSymbols (rule : Rule) : List String :=
  let bound := rule.steps.filterMap Step.boundSymbol?
  rule.effect.toList.filterMap fun
    | .place symbol => if bound.contains symbol then none else some symbol
    | _ => none

/-- Notes the symbols of a rule that some atom has to stand for, once for each
line. -/
def refer (b : Builder) (rule : Rule) : Builder :=
  let references := (unboundSymbols rule).foldl (fun references symbol =>
    let entry := (b.effectLine, symbol)
    if references.contains entry then references else references ++ [entry]) b.references
  { b with references }

/-- Adds a rule whose effect is written to the end. -/
def finish (b : Builder) (rule : Rule) : Except Problem Builder :=
  if rule.hasMap && rule.effect.size ≠ rule.area then .error .missingEffectPattern
  else .ok ((b.refer rule).pushNew rule)

end Builder

/-- A probability, which has to lie between zero and one. -/
def checkProbability (p : Float) : Except Problem Float :=
  if 0.0 ≤ p && p ≤ 1.0 then .ok p else .error (.invalidProbability p)

/-- An expression of a script. -/
def compileExpr (mode : Expr.Mode) (text : List Char) : Except Problem Expr :=
  (Expr.compile mode text).mapError .expression

/-- The problem of a line that may not stand where it stands. -/
def misplaced (line : List Char) : Problem := .misplaced (Text.firstWord line)

end FallingSand.Script
