import FallingSand.Expr.Basic
import FallingSand.World.Symbol

/-!
# Rules

A rule acts on a box of cells around the cell that it is tried for, its anchor.
It applies where its match pattern fits and its conditions hold, and then its
steps are carried out in order. Offsets are relative to the anchor; patterns
are written row by row from the top left corner of the box.

`Rule.reach` is the farthest that a rule can read or write, in either
direction of each axis.
-/

namespace FallingSand

/-- How a step changes a property. -/
inductive Update where
  /-- The property becomes the value. -/
  | set
  /-- The value is added. -/
  | increase
  /-- The property is raised to the value where it is smaller. -/
  | atLeast
  /-- The property is lowered to the value where it is larger. -/
  | atMost
  deriving DecidableEq, Repr

/-- What is stored for a property, given its current value, if anything is. -/
def Update.next? (update : Update) (current value : Float32) : Option Float32 :=
  match update with
  | .set => some value
  | .increase => some (current + value)
  | .atLeast => if current < value then some value else none
  | .atMost => if current > value then some value else none

/-- A step of the effect of a rule. -/
inductive Step where
  /-- Changes a property of the cell at an offset. -/
  | update (kind : Update) (property : String) (target : Vec) (value : Expr)
  /-- Fills the box by the effect pattern. -/
  | map
  /-- Captures the cell at an offset under a symbol. -/
  | bind (symbol : String) (source : Vec)

namespace Step

def isMap : Step → Bool
  | .map => true
  | _ => false

def boundSymbol? : Step → Option String
  | .bind symbol _ => some symbol
  | _ => none

/-- The farthest from the anchor that a step reads or writes, the box apart. -/
def reach : Step → UInt32
  | .update _ _ target value => max target.chebyshev value.reach
  | .map => 0
  | .bind _ source => source.chebyshev

end Step

/-- A rule. -/
structure Rule where
  id : Nat
  width : UInt8
  height : UInt8
  /-- The coordinate of the anchor in the box. -/
  anchor : Vec
  /-- The match pattern row by row, if there is one. -/
  pattern : Option (Array MatchSymbol)
  /-- What has to be true besides. -/
  conditions : List Expr
  /-- The effect pattern row by row; without a `map` step it is empty. -/
  effect : Array EffectSymbol
  steps : List Step
  symmetry : Symmetry
  probability : Float
  /-- Whether other rules are still tried after this one applied. -/
  nonBreak : Bool
  /-- Whether the rule is tried in every tick. -/
  always : Bool
  /-- Where the next tick shall take place. -/
  shift : Option Vec

namespace Rule

/-- A rule without patterns, conditions and steps. -/
def blank (width height : UInt8) (anchor : Vec) : Rule where
  id := 0
  width := width
  height := height
  anchor := anchor
  pattern := none
  conditions := []
  effect := #[]
  steps := []
  symmetry := Symmetry.none
  probability := 1.0
  nonBreak := false
  always := false
  shift := none

def area (rule : Rule) : Nat := rule.width.toNat * rule.height.toNat

def size (rule : Rule) : Vec := ⟨Int32.ofNat rule.width.toNat, Int32.ofNat rule.height.toNat⟩

/-- The coordinates of the box as column and row, row by row. -/
def coordinates (rule : Rule) : List (Nat × Nat) :=
  (List.range rule.height.toNat).flatMap fun row =>
    (List.range rule.width.toNat).map fun column => (column, row)

/-- The place of a coordinate in a pattern. -/
def place (rule : Rule) (column row : Nat) : Nat := row * rule.width.toNat + column

/-- The match symbol at a coordinate. -/
def matchSymbol? (rule : Rule) (column row : Nat) : Option MatchSymbol := do
  (← rule.pattern)[rule.place column row]?

/-- The effect symbol at a coordinate. -/
def effectSymbol? (rule : Rule) (column row : Nat) : Option EffectSymbol :=
  rule.effect[rule.place column row]?

def hasMap (rule : Rule) : Bool := rule.steps.any Step.isMap

/-- Whether the box matters: it is matched or filled. -/
def usesBox (rule : Rule) : Bool := rule.pattern.isSome || rule.hasMap

/-- The farthest from the anchor that the box goes, if it matters. -/
def boxReach (rule : Rule) : UInt32 :=
  if rule.usesBox then
    ((rule.size - Vec.one - rule.anchor).max rule.anchor).largest.toUInt32
  else 0

/-- The farthest from the anchor that the rule reads or writes. -/
def reach (rule : Rule) : UInt32 :=
  let conditions := rule.conditions.foldl (fun reach e => max reach e.reach) 0
  let steps := rule.steps.foldl (fun reach step => max reach step.reach) 0
  max (max rule.boxReach conditions) steps

end Rule

end FallingSand
