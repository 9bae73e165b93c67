import FallingSand.Engine.Action

/-!
# Matching

A match pattern fits at a target if every cell of the box fits its symbol. The
cells are looked at row by row up to the first that does not fit, so a cell that
the board lacks is an error only if all cells before it fit.
-/

namespace FallingSand.Engine

variable {β ρ : Type} [Board β]

/-- Whether the type of a cell in the grid fits a symbol. -/
def accepts (world : World) (owner : AtomType) (symbol : MatchSymbol) (atom : AtomId) : Bool :=
  match symbol with
  | .any | .inside => true
  | .outside => false
  | .empty => atom == world.empty
  | .nonempty => atom != world.empty
  | .notMember set => world.isNotMember owner set atom
  | .member set => world.isMember owner set atom

/-- Whether a symbol has to know the type of a cell in the grid. -/
def asksType : MatchSymbol → Bool
  | .any | .inside | .outside => false
  | _ => true

/-- Whether a position fits a symbol. -/
def fits (world : World) (owner : AtomType) (symbol : MatchSymbol) (p : Vec) :
    Action β ρ Bool := do
  if !(← inGrid p) then return symbol == .outside
  else if asksType symbol then return accepts world owner symbol (← read p).atom
  else return symbol != .outside

/-- Whether the pattern of a rule of `owner` fits at a target; no pattern always
does. -/
def fitsAt (world : World) (owner : AtomType) (rule : Rule) (target : Vec) (o : Orientation) :
    Action β ρ Bool :=
  (o.box rule target).allM fun (p, column, row) =>
    match rule.matchSymbol? column row with
    | some symbol => fits world owner symbol p
    | none => pure true

end FallingSand.Engine
