import FallingSand.Board.Basic

/-!
# Grids of tiles

A grid keeps its cells in square tiles, which are smaller at the right and the
lower edge. Whoever wants to change cells locks a rectangle of tiles first. The
grid with that lock is a `Region`: a board that has exactly the cells of the
locked tiles. Two regions whose locks share no tile have no cell in common.
-/

namespace FallingSand

/-- A grid of cells in tiles. -/
structure Grid where
  /-- The size in cells. -/
  size : Vec
  tileSize : Int32
  /-- The size in tiles. -/
  across : Vec
  /-- The cells of the tiles, each row by row; the tiles are in rows too. -/
  tiles : Array (Array Cell)
  deriving DecidableEq, Repr

namespace Grid

/-- The upper left cell of a tile. -/
def tileOrigin (tileSize : Int32) (tile : Vec) : Vec := tile.scale tileSize

/-- The size in cells of a tile of a grid of the given size. -/
def tileExtent (size : Vec) (tileSize : Int32) (tile : Vec) : Vec :=
  (size - tileOrigin tileSize tile).min (Vec.splat tileSize)

/-- How many tiles a grid has in either direction. -/
def tilesAcross (size : Vec) (tileSize : Int32) : Vec :=
  (size + Vec.splat (tileSize - 1)).divide tileSize

/-- A grid with the same cell everywhere. A number of cells below zero counts as none, but
such a grid is never made. -/
def filled (width height tileSize : UInt32) (cell : Cell) : Grid :=
  let size : Vec := ⟨width.toInt32, height.toInt32⟩
  let tileSize := (max tileSize 1).toInt32
  let across := tilesAcross size tileSize
  { size, tileSize, across
    tiles := (across.positions.map fun tile =>
      Array.replicate (tileExtent size tileSize tile).areaWord.toNatClampNeg cell).toArray }

/-- Whether a grid can be made. Its sides are divided by the width of a tile, which fails for
the least word and -1, and room is asked for as many tiles and as many cells of each tile as
their words say, which fails for a word below zero. -/
def canMake (width height tileSize : UInt32) : Bool :=
  let size : Vec := ⟨width.toInt32, height.toInt32⟩
  let tileSize := (max tileSize 1).toInt32
  let across := tilesAcross size tileSize
  let rounded := size + Vec.splat (tileSize - 1)
  (tileSize ≠ -1 || rounded.x ≠ Int32.minValue && rounded.y ≠ Int32.minValue)
    && 0 ≤ across.areaWord
    && across.positions.all fun tile => 0 ≤ (tileExtent size tileSize tile).areaWord

/-- A new grid with the same cell everywhere, if it can be made. -/
def make? (width height tileSize : UInt32) (cell : Cell) : Option Grid :=
  if canMake width height tileSize then some (filled width height tileSize cell) else none

/-- The tile of a position in the grid. -/
def tileAt (g : Grid) (p : Vec) : Vec := p.divide g.tileSize

/-- The tile of the position in the grid that is nearest to a position. -/
def tileOf (g : Grid) (p : Vec) : Vec := g.tileAt ((p.max Vec.zero).min (g.size - Vec.one))

def tileNumber (g : Grid) (tile : Vec) : Nat := tile.place g.across

/-- Where the cell at a position of the grid is kept: the number of its tile, and
its place there. Both the place and the number of the cells of a tile are worked out
on words, so that a place below zero is past the end of every tile. -/
def slot (g : Grid) (p : Vec) : Nat × Nat :=
  let tile := g.tileAt p
  (g.tileNumber tile,
    ((p - tileOrigin g.tileSize tile).placeWord
      (tileExtent g.size g.tileSize tile)).toUInt32.toNat)

def slotCell? (g : Grid) (slot : Nat × Nat) : Option Cell := do
  (← g.tiles[slot.1]?)[slot.2]?

def writeSlot (g : Grid) (slot : Nat × Nat) (cell : Cell) : Grid :=
  { g with tiles := g.tiles.modify slot.1 (·.setIfInBounds slot.2 cell) }

end Grid

/-- A rectangle of tiles of a grid. -/
structure Lock where
  /-- The upper left tile. -/
  low : Vec
  span : Vec
  deriving DecidableEq, Repr

namespace Lock

def has (lock : Lock) (tile : Vec) : Bool := (tile - lock.low).inBounds lock.span

def tiles (lock : Lock) : List Vec := lock.span.positions.map (lock.low + ·)

end Lock

namespace Grid

/-- Locks the tiles between two tiles, as far as there are any. -/
def lockTiles (g : Grid) (low high : Vec) : Lock :=
  let low := low.max Vec.zero
  let high := high.min (g.across - Vec.one)
  ⟨low, (high - low + Vec.one).max Vec.zero⟩

/-- Locks the tile of a position and the tiles around it. -/
def lockBlock (g : Grid) (p : Vec) : Lock :=
  let center := g.tileOf p
  g.lockTiles (center - Vec.one) (center + Vec.one)

/-- Locks every tile that a rectangle of cells touches; both corners belong to
the rectangle. -/
def lockRect (g : Grid) (low high : Vec) : Lock := g.lockTiles (g.tileOf low) (g.tileOf high)

def lockAll (g : Grid) : Lock := g.lockTiles Vec.zero (g.across - Vec.one)

/-- The numbers of the locked tiles, in the order in which they are locked. -/
def lockedTiles (g : Grid) (lock : Lock) : List Nat := lock.tiles.map g.tileNumber

end Grid

/-- The part of a grid that is locked. -/
structure Region where
  grid : Grid
  lock : Lock
  deriving DecidableEq, Repr

namespace Region

/-- Whether a position lies in a locked tile. -/
def contains (r : Region) (p : Vec) : Bool :=
  p.inBounds r.grid.size && r.lock.has (r.grid.tileAt p)

/-- The upper left and the lower right position of the locked tiles. -/
def bounds (r : Region) : Vec × Vec :=
  let low := r.lock.low.scale r.grid.tileSize
  let high := ((r.lock.low + r.lock.span).scale r.grid.tileSize).min r.grid.size - Vec.one
  (low, high)

def cell? (r : Region) (p : Vec) : Option Cell :=
  if r.contains p then r.grid.slotCell? (r.grid.slot p) else none

def write (r : Region) (p : Vec) (cell : Cell) : Region :=
  if r.contains p then { r with grid := r.grid.writeSlot (r.grid.slot p) cell } else r

instance : Board Region := ⟨fun r => r.grid.size, cell?, write⟩

end Region

end FallingSand
