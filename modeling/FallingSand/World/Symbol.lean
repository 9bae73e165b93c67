/-!
# Symbols

The tokens of patterns and sets. A match pattern says what has to be in each
cell of a box, an effect pattern says what it becomes, and a set lists the
atoms that belong to it. Every token is some symbol.
-/

namespace FallingSand

/-- A symbol of a match pattern. -/
inductive MatchSymbol where
  /-- `x`: any cell. -/
  | any
  /-- `_`: a cell of the empty type. -/
  | empty
  /-- `n`: a cell of another type. -/
  | nonempty
  /-- `e`: outside the grid. -/
  | outside
  /-- `*`: any cell inside the grid. -/
  | inside
  /-- `~set`: no member of the set. -/
  | notMember (set : String)
  /-- A member of the set, or of the atoms with this alias. -/
  | member (set : String)
  deriving DecidableEq, Repr

def MatchSymbol.ofToken : List Char → MatchSymbol
  | ['x'] => .any
  | ['_'] => .empty
  | ['n'] => .nonempty
  | ['e'] => .outside
  | ['*'] => .inside
  | '~' :: set => .notMember (String.ofList set)
  | token => .member (String.ofList token)

/-- A symbol of an effect pattern. -/
inductive EffectSymbol where
  /-- `/`: the cell stays as it is. -/
  | keep
  /-- `x`: the cell of the anchor as it was before the step. -/
  | anchor
  /-- `_`: a new cell of the empty type. -/
  | empty
  /-- A captured cell, or a new cell of the atom with this alias or name. -/
  | place (symbol : String)
  deriving DecidableEq, Repr

def EffectSymbol.ofToken : List Char → EffectSymbol
  | ['/'] => .keep
  | ['x'] => .anchor
  | ['_'] => .empty
  | token => .place (String.ofList token)

/-- A member of a set. -/
inductive SetMember where
  | atom (name : String)
  /-- `^alias`: every atom with the alias. -/
  | aliased (name : String)
  deriving DecidableEq, Repr

def SetMember.ofToken : List Char → SetMember
  | '^' :: name => .aliased (String.ofList name)
  | token => .atom (String.ofList token)

/-- The axes on which a rule may be mirrored. -/
structure Symmetry where
  x : Bool
  y : Bool
  deriving DecidableEq, Repr, Inhabited

namespace Symmetry

def none : Symmetry := ⟨false, false⟩

/-- Adds an axis by its letter, unless it is there already. -/
def add? (s : Symmetry) : Char → Option Symmetry
  | 'x' => if s.x then Option.none else some { s with x := true }
  | 'y' => if s.y then Option.none else some { s with y := true }
  | _ => Option.none

/-- The symmetry that a list of letters writes, each at most once. -/
def read? (letters : List Char) : Option Symmetry :=
  letters.foldlM add? none

def letters (s : Symmetry) : String :=
  (if s.x then "x" else "") ++ (if s.y then "y" else "")

end Symmetry

end FallingSand
