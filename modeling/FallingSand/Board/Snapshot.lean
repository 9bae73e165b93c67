import FallingSand.Board.Basic

/-!
# Snapshots

A snapshot holds all cells of a grid, row by row. It is what is left to look at
of a grid that goes on changing, and the plainest board there is.
-/

namespace FallingSand

structure Snapshot where
  size : Vec := Vec.zero
  cells : Array Cell := #[]
  deriving DecidableEq, Repr, Inhabited

namespace Snapshot

/-- A snapshot with the same cell everywhere. -/
def filled (size : Vec) (cell : Cell) : Snapshot := ⟨size, Array.replicate size.area cell⟩

def cell? (s : Snapshot) (p : Vec) : Option Cell :=
  if p.inBounds s.size then s.cells[p.place s.size]? else none

def write (s : Snapshot) (p : Vec) (cell : Cell) : Snapshot :=
  if p.inBounds s.size then { s with cells := s.cells.setIfInBounds (p.place s.size) cell }
  else s

instance : Board Snapshot := ⟨size, cell?, write⟩

/-- Takes over all cells that a board has. Where it has none, the cells of the
snapshot stay, unless the sizes differ and everything starts anew. -/
def copyFrom {β : Type} [Board β] (s : Snapshot) (board : β) : Snapshot :=
  let size := Board.size board
  let start := if s.size = size then s else filled size {}
  size.positions.foldl (fun s p =>
    match Board.cell? board p with
    | some cell => s.write p cell
    | none => s) start

def ofBoard {β : Type} [Board β] (board : β) : Snapshot := copyFrom {} board

/-- Every cell with its position, row by row. -/
def entries (s : Snapshot) : List (Vec × Cell) :=
  s.cells.toList.zipIdx.map fun (cell, n) => (Vec.ofPlace s.size n, cell)

/-- Counts one more cell of a type; `counts` holds the numbers of the types up to
the largest one that was counted. -/
def tally (counts : Array Nat) (atom : AtomId) : Array Nat :=
  let n := atom.toNat
  if n < counts.size then counts.modify n (· + 1)
  else (counts ++ Array.replicate (n - counts.size) 0).push 1

/-- The number of cells of each type, up to the largest type that there is. -/
def population (s : Snapshot) : Array Nat :=
  s.cells.foldl (fun counts cell => tally counts cell.atom) #[]

end Snapshot

end FallingSand
