import FallingSand.World.Atom

/-!
# Boards

A board is whatever can be asked for the cell at a position and told to replace
it: a whole grid of cells, or the part of one that is locked. It knows the size
of the grid in either case, so a position may lie in the grid and still have no
cell on the board.

Everything that happens to cells is written over this interface alone, so it
does the same to every board that holds the same cells.
-/

namespace FallingSand

/-- A cell: the number of its type, and properties of its own. -/
structure Cell where
  atom : AtomId := 0
  properties : Properties := {}
  deriving DecidableEq, Repr, Inhabited

namespace Cell

def set (cell : Cell) (name : String) (value : Float32) : Cell :=
  { cell with properties := cell.properties.insert name value }

end Cell

/-- A new cell of a type, before its properties are worked out. -/
def AtomType.newCell (atom : AtomType) : Cell := ⟨atom.id, atom.properties⟩

/-- Boards of cells. -/
class Board (β : Type) where
  size : β → Vec
  /-- The cell at a position, if the board has it. -/
  cell? : β → Vec → Option Cell
  /-- Replaces the cell at a position; without effect where there is none. -/
  write : β → Vec → Cell → β

/-- Whether a position lies in the grid that a board is part of. -/
def Board.inGrid {β : Type} [Board β] (board : β) (p : Vec) : Bool := p.inBounds (size board)

end FallingSand
