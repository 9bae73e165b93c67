import FallingSand.Data.Table
import FallingSand.World.Color
import FallingSand.World.Rule

/-!
# Atoms

An atom type is a kind of material: what a new cell of it holds, what it looks
like, and how it behaves. Its rules come in two lists, those that are tried in
every tick and those of which one is to apply.
-/

namespace FallingSand

/-- The number of an atom type, in the order of declaration. -/
abbrev AtomId := UInt16

/-- Properties of a cell or of a type. -/
abbrev Properties := Table Float32

/-- How the cells of a type are colored. -/
inductive AtomColor where
  | fixed (color : Color)
  /-- By the color rules of the type. -/
  | dynamic
  deriving DecidableEq, Repr

/-- A color for the cells in which a condition holds. -/
structure ColorRule where
  condition : Expr
  r : Expr
  g : Expr
  b : Expr

/-- The movements that need no rule. -/
inductive Movement where
  /-- Change places with the cell below. -/
  | fall
  /-- Change places with the cell below or one beside that. -/
  | sandLike
  /-- Change places with any neighbor. -/
  | randomMove
  deriving DecidableEq, Repr

namespace Movement

def name : Movement → String
  | .fall => "fall"
  | .sandLike => "sandLike"
  | .randomMove => "randomMove"

def ofName? (text : String) : Option Movement :=
  [fall, sandLike, randomMove].find? (·.name == text)

end Movement

/-- A movement as a type uses it. -/
structure Extension where
  movement : Movement
  /-- The set of atoms that places are changed with. -/
  replaceable : String
  /-- How likely it happens once it is chosen, if that is not certain. -/
  probability : Option Float
  /-- All parameters as they are written. -/
  parameters : Table String

/-- A type of material. -/
structure AtomType where
  id : AtomId
  name : String
  aliasName : Option String
  color : AtomColor := .fixed Color.black
  colorRules : List ColorRule := []
  /-- The key that selects the type for placing. -/
  key : Option Char := none
  /-- The properties that a new cell starts with. -/
  properties : Properties := {}
  /-- Properties of the type as a whole. -/
  constants : Properties := {}
  /-- Sets of atoms that the rules of the type refer to. -/
  definitions : Table (List SetMember) := {}
  alwaysRules : Array Rule := #[]
  rules : Array Rule := #[]
  extensions : Array Extension := #[]
  /-- Properties of a new cell that are worked out, in order. -/
  init : List (String × Expr) := []

namespace AtomType

instance : Inhabited AtomType := ⟨{ id := 0, name := "", aliasName := none }⟩

/-- All rules, those that are always tried first. -/
def allRules (atom : AtomType) : List Rule :=
  atom.alwaysRules.toList ++ atom.rules.toList

end AtomType

end FallingSand
