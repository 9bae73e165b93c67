import FallingSand.Config.Basic
import FallingSand.Proofs.Board.Locks

/-!
# Grids that are covered

A configuration is refused only if a side, the width of a tile or the number of workers is
zero. The sides become words with a sign, and rounding them up to whole tiles adds the width of
a tile to them, so that both may wrap: such a grid has tiles for less than its cells, if it has
any at all, and nobody can lock what no tile has. The numbers of tiles and of cells wrap too, and
where one of them is below zero there is no grid. Exactly those configurations that are accepted
get a grid with all of its tiles whose sides leave room for a tile and whose numbers stay at or
above zero, and those of a single cell whose tiles are too wide for a word with a sign, unless
the number of the cells of its only tile is below zero.
-/

namespace FallingSand

/-! ## Configurations that are accepted -/

theorem pos_of_ne_zero {n : UInt32} (h : n ≠ 0) : 0 < n.toNat := by
  rcases Nat.eq_zero_or_pos n.toNat with zero | pos
  · exact absurd (UInt32.toNat_inj.mp zero) h
  · exact pos

/-- There is only one position in a grid of a single cell. -/
theorem Vec.eq_zero_of_inBounds {p : Vec} (inside : p.inBounds Vec.one = true) : p = Vec.zero := by
  rw [Vec.inBounds_iff] at inside
  have one : Vec.one.x.toInt = 1 ∧ Vec.one.y.toInt = 1 := ⟨rfl, rfl⟩
  have zero : Vec.zero.x.toInt = 0 ∧ Vec.zero.y.toInt = 0 := ⟨rfl, rfl⟩
  exact Vec.ext (Int32.toInt_inj.mp (by omega)) (Int32.toInt_inj.mp (by omega))

namespace Config

variable {c : Config}

theorem sides_pos (accepted : c.flaw? = none) :
    0 < c.width.toNat ∧ 0 < c.height.toNat ∧ 0 < c.tileSize.toNat := by
  unfold flaw? at accepted
  split at accepted
  · cases accepted
  rename_i cells
  split at accepted
  · cases accepted
  rename_i tiles
  simp only [Bool.or_eq_true, decide_eq_true_eq, not_or] at cells
  exact ⟨pos_of_ne_zero cells.1, pos_of_ne_zero cells.2, pos_of_ne_zero tiles⟩

/-- The grid of a configuration, as if it could always be made. -/
def grid (c : Config) (fill : Cell) : Grid := .filled c.width c.height c.tileSize fill

/-- The grid that is made under a configuration, if it can be made. -/
def grid? (c : Config) (fill : Cell) : Option Grid :=
  Grid.make? c.width c.height c.tileSize fill

/-- How many columns of tiles it takes to cover the width. -/
def columns (c : Config) : Nat := (c.width.toNat + c.tileSize.toNat - 1) / c.tileSize.toNat

/-- How many rows of tiles it takes to cover the height. -/
def rows (c : Config) : Nat := (c.height.toNat + c.tileSize.toNat - 1) / c.tileSize.toNat

/-- Whether rounding the sides up to whole tiles stays within the words. -/
def Rounds (c : Config) : Prop :=
  c.width.toNat + c.tileSize.toNat ≤ 2147483648 ∧
    c.height.toNat + c.tileSize.toNat ≤ 2147483648

/-- Whether the grid is a single cell, in a tile that is too wide for a word with a sign. -/
def Dot (c : Config) : Prop :=
  (c.width = 1 ∧ c.height = 1) ∧ 2147483648 ≤ c.tileSize.toNat

/-- How many cells the tile in a column and a row has when all of them are there. -/
def tileCells (c : Config) (column row : Nat) : Nat :=
  min (c.width.toNat - column * c.tileSize.toNat) c.tileSize.toNat *
    min (c.height.toNat - row * c.tileSize.toNat) c.tileSize.toNat

/-- Whether a number is not below zero when it is cut down to a word with a sign. -/
def Countable (n : Nat) : Prop := n % 4294967296 < 2147483648

instance (n : Nat) : Decidable (Countable n) := inferInstanceAs (Decidable (_ < _))

/-- Whether room can be asked for all tiles and for all cells of each. -/
structure Allocates (c : Config) : Prop where
  tiles : Countable (c.columns * c.rows)
  cells : ∀ column < c.columns, ∀ row < c.rows, Countable (c.tileCells column row)

end Config

namespace Grid

/-! ## One axis -/

section Axis

variable {side tile : UInt32}

/-- A word that is too large for a sign stands for a negative number. -/
theorem toInt_toInt32_of_le (h : 2147483648 ≤ tile.toNat) :
    tile.toInt32.toInt = tile.toNat - 4294967296 := by
  have bound := tile.toNat_lt
  rw [← UInt32.ofNat_toNat (x := tile), UInt32.toInt32_ofNat', UInt32.toNat_ofNat']
  obtain ⟨k, hk⟩ := toInt_ofNat_wraps tile.toNat
  have := (Int32.ofNat tile.toNat).toInt_lt
  have := (Int32.ofNat tile.toNat).le_toInt
  omega

theorem lt_of_toInt_toInt32 (h : side.toInt32.toInt = side.toNat) : side.toNat < 2147483648 := by
  have := side.toInt32.toInt_lt
  omega

/-- How many tiles it takes to cover a side. -/
theorem tiles_eq (hs : 0 < side.toNat) (ht : 0 < tile.toNat) :
    (side.toNat + tile.toNat - 1) / tile.toNat = (side.toNat - 1) / tile.toNat + 1 := by
  rw [← Nat.add_div_right _ ht]
  congr 1
  omega

/-- Where rounding up stays within the words, it finds the number of tiles. -/
theorem across_of_fits (hs : 0 < side.toNat) (ht : 0 < tile.toNat)
    (fits : side.toNat + tile.toNat ≤ 2147483648) :
    ((side.toInt32 + (tile.toInt32 - 1)) / tile.toInt32).toInt =
      ((side.toNat + tile.toNat - 1) / tile.toNat : Nat) := by
  have exactSide : side.toInt32.toInt = side.toNat := toInt_toInt32 (by omega)
  have exactTile : tile.toInt32.toInt = tile.toNat := toInt_toInt32 (by omega)
  rw [toInt_across (by omega) (by omega) (by omega), exactSide, exactTile, tiles_eq hs ht]
  push_cast [Nat.cast_sub hs]
  rfl

/-- Where it does not, there is no tile. -/
theorem across_of_wraps (hs : side.toNat < 2147483648) (ht : 0 < tile.toNat)
    (narrow : tile.toNat < 2147483648) (wraps : 2147483648 < side.toNat + tile.toNat) :
    ((side.toInt32 + (tile.toInt32 - 1)) / tile.toInt32).toInt ≤ 0 := by
  have exactSide : side.toInt32.toInt = side.toNat := toInt_toInt32 hs
  have exactTile : tile.toInt32.toInt = tile.toNat := toInt_toInt32 narrow
  have last := toInt_pred (a := tile.toInt32) (by omega)
  obtain ⟨k, sum⟩ := toInt_add_wraps side.toInt32 (tile.toInt32 - 1)
  have below : (side.toInt32 + (tile.toInt32 - 1)).toInt ≤ 0 := by
    have := (side.toInt32 + (tile.toInt32 - 1)).toInt_lt
    have := (side.toInt32 + (tile.toInt32 - 1)).le_toInt
    omega
  have other : tile.toInt32 ≠ -1 := by
    intro same
    have : tile.toInt32.toInt = -1 := congrArg Int32.toInt same
    omega
  rw [Int32.toInt_div_of_ne_right _ _ other, ← Int.neg_tdiv_neg]
  exact Int.tdiv_nonpos_of_nonneg_of_nonpos (by omega) (by omega)

/-- With a tile that is too wide for a word with a sign, one tile is found for a side of one
cell, but not for a longer one. -/
theorem across_of_wide (hs : 0 < side.toNat) (fits : side.toNat < 2147483648)
    (wide : 2147483648 ≤ tile.toNat) :
    ((side.toInt32 + (tile.toInt32 - 1)) / tile.toInt32).toInt = 1 ↔ side.toNat = 1 := by
  have bound := tile.toNat_lt
  have exactSide : side.toInt32.toInt = side.toNat := toInt_toInt32 fits
  have exactTile := toInt_toInt32_of_le wide
  generalize side.toInt32 = s at exactSide ⊢
  generalize tile.toInt32 = t at exactTile ⊢
  have sum : (s + (t - 1)).toInt = t.toInt + (s.toInt - 1) := by
    have one : (1 : Int32).toInt = 1 := rfl
    obtain ⟨j, hj⟩ := toInt_sub_wraps t 1
    obtain ⟨k, hk⟩ := toInt_add_wraps s (t - 1)
    have := (s + (t - 1)).toInt_lt
    have := (s + (t - 1)).le_toInt
    omega
  constructor
  · intro single
    by_contra longer
    have notLeast : s + (t - 1) ≠ Int32.minValue := by
      intro same
      have : (s + (t - 1)).toInt = -2147483648 := congrArg Int32.toInt same
      omega
    rw [Int32.toInt_div_of_ne_left _ _ notLeast] at single
    -- The sum lies above the tile, so it is a part of it or has the other sign.
    rcases Int.lt_or_le (s + (t - 1)).toInt 0 with negative | nonneg
    · rw [← Int.neg_tdiv_neg, Int.tdiv_eq_zero_of_lt (by omega) (by omega)] at single
      cases single
    · have := Int.tdiv_nonpos_of_nonneg_of_nonpos nonneg (by omega : t.toInt ≤ 0)
      omega
  · intro one
    have same : s + (t - 1) = t := Int32.toInt_inj.mp (by omega)
    rw [same]
    by_cases least : t = -1
    · rw [least]
      rfl
    · rw [Int32.toInt_div_of_ne_right _ _ least, Int.tdiv_self (by omega)]

/-- Rounding up finds the number of tiles where it stays within the words, or for a single cell
if the tile is too wide for a word with a sign. -/
theorem across_exact_iff (hs : 0 < side.toNat) (ht : 0 < tile.toNat)
    (fits : side.toNat < 2147483648) :
    ((side.toInt32 + (tile.toInt32 - 1)) / tile.toInt32).toInt =
        ((side.toNat + tile.toNat - 1) / tile.toNat : Nat) ↔
      side.toNat + tile.toNat ≤ 2147483648 ∨ side.toNat = 1 ∧ 2147483648 ≤ tile.toNat := by
  rcases Nat.lt_or_ge tile.toNat 2147483648 with narrow | wide
  · constructor
    · intro exact
      by_contra wraps
      have none := across_of_wraps fits ht narrow (by omega)
      have some : 0 < (side.toNat + tile.toNat - 1) / tile.toNat := Nat.div_pos (by omega) ht
      omega
    · intro within
      exact across_of_fits hs ht (by omega)
  · have single : (side.toNat + tile.toNat - 1) / tile.toNat = 1 := by
      rw [tiles_eq hs ht, Nat.div_eq_of_lt (by omega)]
    rw [single, Nat.cast_one, across_of_wide hs fits wide]
    omega

/-- A tile reaches as far as it is wide, or to the end of the side. -/
theorem toInt_extent (hs : 0 < side.toNat) (ht : 0 < tile.toNat)
    (fits : side.toNat + tile.toNat ≤ 2147483648) {k : Int32} {place : Nat} (hk : k.toInt = place)
    (inside : place < (side.toNat + tile.toNat - 1) / tile.toNat) :
    (if side.toInt32 - k * tile.toInt32 ≤ tile.toInt32 then side.toInt32 - k * tile.toInt32
      else tile.toInt32).toInt = (min (side.toNat - place * tile.toNat) tile.toNat : Nat) := by
  have exactSide : side.toInt32.toInt = side.toNat := toInt_toInt32 (by omega)
  have exactTile : tile.toInt32.toInt = tile.toNat := toInt_toInt32 (by omega)
  rw [tiles_eq hs ht] at inside
  have before : place * tile.toNat ≤ side.toNat - 1 :=
    (Nat.le_div_iff_mul_le ht).mp (Nat.le_of_lt_succ inside)
  have start : (k * tile.toInt32).toInt = (place * tile.toNat : Nat) := by
    rw [toInt_mul_of_fits] <;> rw [hk, exactTile, ← Int.natCast_mul] <;> omega
  have left : (side.toInt32 - k * tile.toInt32).toInt =
      side.toNat - (place * tile.toNat : Nat) := by
    rw [toInt_sub_of_fits] <;> rw [exactSide, start] <;> omega
  simp only [Int32.le_iff_toInt_le, left, exactTile]
  split <;> omega

end Axis

/-! ## Room for tiles and cells -/

theorem nonneg_mul_iff (a b : Int32) :
    0 ≤ (a * b).toInt ↔ a.toInt * b.toInt % 4294967296 < 2147483648 := by
  rw [Int32.toInt_mul]
  have := Int.bmod_def (a.toInt * b.toInt) 4294967296
  norm_num at this ⊢
  split at this <;> omega

theorem nonneg_mul_iff_countable {a b : Int32} {m n : Nat} (ha : a.toInt = m) (hb : b.toInt = n) :
    0 ≤ (a * b).toInt ↔ Config.Countable (m * n) := by
  rw [nonneg_mul_iff, ha, hb, Config.Countable]
  omega

/-- A grid can be made if the sides can be divided and no number of tiles or of cells of a tile is
below zero. -/
theorem canMake_iff (width height tileSize : UInt32) (cell : Cell) :
    canMake width height tileSize = true ↔
      let g := filled width height tileSize cell
      let rounded := g.size + Vec.splat (g.tileSize - 1)
      (g.tileSize = -1 → rounded.x ≠ Int32.minValue ∧ rounded.y ≠ Int32.minValue) ∧
        0 ≤ g.across.areaWord.toInt ∧ ∀ tile, tile.inBounds g.across = true →
          0 ≤ (tileExtent g.size g.tileSize tile).areaWord.toInt := by
  simp only [canMake, filled, Bool.and_eq_true, Bool.or_eq_true, decide_eq_true_eq,
    List.all_eq_true, Vec.mem_positions, Int32.le_iff_toInt_le, Int32.toInt_zero, and_assoc, ne_eq,
    Decidable.imp_iff_not_or]

/-! ## Grids with all of their tiles -/

/-- Whether a grid has the sides that are asked for, as many tiles as it takes to cover them,
and a tile to lock for each of its positions. -/
structure Covers (g : Grid) (width height tileSize : Nat) : Prop where
  size : g.size.x.toInt = width ∧ g.size.y.toInt = height
  across : g.across.x.toInt = ((width + tileSize - 1) / tileSize : Nat) ∧
    g.across.y.toInt = ((height + tileSize - 1) / tileSize : Nat)
  tiles : g.tiles.size =
    (width + tileSize - 1) / tileSize * ((height + tileSize - 1) / tileSize)
  blocks : ∀ p : Vec, 0 ≤ p.x.toInt ∧ p.x.toInt < width → 0 ≤ p.y.toInt ∧ p.y.toInt < height →
    (Region.mk g (g.lockBlock p)).contains p = true

/-- Whether the numbers of the tiles and of the cells of each tile are what their words say
when room is asked for them. -/
structure Roomy (g : Grid) : Prop where
  tiles : g.across.areaWord.toInt = g.tiles.size
  cells : ∀ tile, tile.inBounds g.across = true → ∃ cells,
    g.tiles[g.tileNumber tile]? = some cells ∧
      (tileExtent g.size g.tileSize tile).areaWord.toInt = cells.size

theorem size_tiles_filled (width height tileSize : UInt32) (cell : Cell) :
    (filled width height tileSize cell).tiles.size =
      (filled width height tileSize cell).across.area := by
  rw [← Vec.length_positions]
  simp [filled]

theorem WellFormed.roomy {width height tileSize : UInt32} {cell : Cell}
    (wf : (filled width height tileSize cell).WellFormed) :
    (filled width height tileSize cell).Roomy where
  tiles := by
    have inside := (Vec.inBounds_iff _ _).mp (wf.tileOf_inBounds Vec.zero)
    rw [size_tiles_filled]
    exact Vec.toInt_areaWord (by omega) (by omega) (wf.area_across_le.trans_lt wf.room)
  cells := by
    intro tile inside
    obtain ⟨cells, found, size⟩ := wf.tiles tile inside
    exact ⟨cells, found, size ▸ wf.toInt_areaWord_tileExtent wf.room inside⟩

/-- A grid of one cell and one tile is covered, however wide the tile claims to be. -/
theorem contains_lockBlock_dot {g : Grid} {p : Vec} (size : g.size = Vec.one)
    (across : g.across = Vec.one) (inside : p.inBounds g.size = true) :
    (Region.mk g (g.lockBlock p)).contains p = true := by
  rw [size] at inside
  rw [Vec.eq_zero_of_inBounds inside]
  have first : Vec.zero.divide g.tileSize = Vec.zero := by
    simp only [Vec.divide, Vec.zero, Int32.zero_div]
  have tile : g.tileOf Vec.zero = Vec.zero := by
    rw [tileOf, size]
    exact first
  have lock : g.lockBlock Vec.zero = ⟨Vec.zero, Vec.one⟩ := by
    rw [lockBlock, tile, lockTiles, across]
    decide
  rw [Region.contains, size, lock]
  show (Vec.zero.inBounds Vec.one && Lock.has ⟨Vec.zero, Vec.one⟩ (Vec.zero.divide g.tileSize)) = _
  rw [first]
  decide

end Grid

namespace Config

variable {c : Config} (accepted : c.flaw? = none)

/-- Where the sides are words with a sign, the grid has them. -/
theorem size_grid (c : Config) (fill : Cell) (width : c.width.toNat < 2147483648)
    (height : c.height.toNat < 2147483648) : (c.grid fill).size.x.toInt = c.width.toNat ∧
      (c.grid fill).size.y.toInt = c.height.toNat :=
  ⟨toInt_toInt32 width, toInt_toInt32 height⟩

theorem grid?_eq_some_iff {fill : Cell} {g : Grid} : c.grid? fill = some g ↔
    Grid.canMake c.width c.height c.tileSize = true ∧ c.grid fill = g := by
  unfold grid? Grid.make? grid
  split <;> simp_all

include accepted

theorem tileSize_grid (fill : Cell) : (c.grid fill).tileSize = c.tileSize.toInt32 := by
  show (max c.tileSize 1).toInt32 = _
  rw [Grid.max_one_eq (sides_pos accepted).2.2]

/-- The tiles of a grid are counted exactly if its sides round or it is a single cell. -/
theorem across_grid_iff (fill : Cell) (hw : c.width.toNat < 2147483648)
    (hh : c.height.toNat < 2147483648) :
    ((c.grid fill).across.x.toInt = c.columns ∧ (c.grid fill).across.y.toInt = c.rows) ↔
      c.Rounds ∨ c.Dot := by
  obtain ⟨width, height, tile⟩ := sides_pos accepted
  have exactX := Grid.across_exact_iff width tile hw
  have exactY := Grid.across_exact_iff height tile hh
  have across : (c.grid fill).across =
      ⟨(c.width.toInt32 + (c.tileSize.toInt32 - 1)) / c.tileSize.toInt32,
        (c.height.toInt32 + (c.tileSize.toInt32 - 1)) / c.tileSize.toInt32⟩ := by
    show Grid.tilesAcross _ (max c.tileSize 1).toInt32 = _
    rw [Grid.max_one_eq tile]
    rfl
  have dot : c.Dot ↔
      (c.width.toNat = 1 ∧ c.height.toNat = 1) ∧ 2147483648 ≤ c.tileSize.toNat := by
    rw [Dot, ← UInt32.toNat_inj, ← UInt32.toNat_inj]
    rfl
  rw [across, columns, rows, exactX, exactY, dot, Rounds]
  omega

theorem across_of_dot (dot : c.Dot) (fill : Cell) :
    (c.grid fill).size = Vec.one ∧ (c.grid fill).across = Vec.one := by
  obtain ⟨⟨width, height⟩, wide⟩ := dot
  have across := (across_grid_iff accepted fill (by rw [width]; decide)
    (by rw [height]; decide)).mpr (.inr ⟨⟨width, height⟩, wide⟩)
  have single : (1 + c.tileSize.toNat - 1) / c.tileSize.toNat = 1 := by
    rw [Nat.add_sub_cancel_left, Nat.div_self (by omega)]
  rw [columns, rows, width, height, UInt32.toNat_one, single] at across
  refine ⟨?_, Vec.ext (Int32.toInt_inj.mp across.1) (Int32.toInt_inj.mp across.2)⟩
  rw [grid, width, height]
  rfl

/-- Where the tiles are counted exactly, each position has a tile to lock. -/
theorem contains_lockBlock (made : c.Rounds ∨ c.Dot) (fill : Cell) {p : Vec}
    (inside : p.inBounds (c.grid fill).size = true) :
    (Region.mk (c.grid fill) ((c.grid fill).lockBlock p)).contains p = true := by
  obtain ⟨width, height, tile⟩ := sides_pos accepted
  rcases made with rounds | dot
  · have shaped := Grid.shaped_filled fill tile ⟨width, rounds.1⟩ ⟨height, rounds.2⟩
    exact shaped.contains_lockBlock inside inside (Vec.near_self p _)
  · obtain ⟨size, across⟩ := across_of_dot accepted dot fill
    exact Grid.contains_lockBlock_dot size across inside

theorem covers_of_made (made : c.Rounds ∨ c.Dot) (fill : Cell) :
    (c.grid fill).Covers c.width.toNat c.height.toNat c.tileSize.toNat := by
  have small : c.width.toNat < 2147483648 ∧ c.height.toNat < 2147483648 := by
    rcases made with rounds | dot
    · unfold Rounds at rounds
      have := sides_pos accepted
      omega
    · rw [dot.1.1, dot.1.2]
      decide
  have size := size_grid c fill small.1 small.2
  have across := (across_grid_iff accepted fill small.1 small.2).mpr made
  refine ⟨size, across, ?_, ?_⟩
  · rw [grid, Grid.size_tiles_filled]
    show (c.grid fill).across.area = _
    rw [Vec.area, Vec.columns, Vec.rows, Int32.toNatClampNeg, Int32.toNatClampNeg, across.1,
      across.2, Int.toNat_natCast, Int.toNat_natCast, columns, rows]
  · intro p columns rows
    apply contains_lockBlock accepted made
    rw [Vec.inBounds_iff, size.1, size.2]
    exact ⟨columns, rows⟩

/-- Where the sides round, room is asked for the true numbers of tiles and cells. -/
theorem canMake_iff_of_rounds (rounds : c.Rounds) :
    Grid.canMake c.width c.height c.tileSize = true ↔ c.Allocates := by
  obtain ⟨width, height, tile⟩ := sides_pos accepted
  have small : c.width.toNat < 2147483648 ∧ c.height.toNat < 2147483648 ∧
      c.tileSize.toNat < 2147483648 := by
    unfold Rounds at rounds
    omega
  have across := (across_grid_iff accepted {} small.1 small.2.1).mpr (.inl rounds)
  have side := tileSize_grid accepted {}
  have tiles : 0 ≤ (c.grid {}).across.areaWord.toInt ↔ Countable (c.columns * c.rows) :=
    Grid.nonneg_mul_iff_countable across.1 across.2
  have cells {p : Vec} {column row : Nat} (hx : p.x.toInt = column) (hy : p.y.toInt = row)
      (columns : column < c.columns) (rows : row < c.rows) :
      0 ≤ (Grid.tileExtent (c.grid {}).size (c.grid {}).tileSize p).areaWord.toInt ↔
        Countable (c.tileCells column row) := by
    rw [side]
    exact Grid.nonneg_mul_iff_countable (Grid.toInt_extent width tile rounds.1 hx columns)
      (Grid.toInt_extent height tile rounds.2 hy rows)
  rw [Grid.canMake_iff c.width c.height c.tileSize {}]
  constructor
  · rintro ⟨-, all, each⟩
    refine ⟨tiles.mp all, fun column columns row rows => ?_⟩
    have := (c.grid {}).across.x.toInt_lt
    have := (c.grid {}).across.y.toInt_lt
    have hx : (Vec.ofNat column row).x.toInt = column := Int32.toInt_ofNat_of_lt (by omega)
    have hy : (Vec.ofNat column row).y.toInt = row := Int32.toInt_ofNat_of_lt (by omega)
    refine (cells hx hy columns rows).mp (each _ ?_)
    show (Vec.ofNat column row).inBounds (c.grid {}).across = true
    rw [Vec.inBounds_iff, hx, hy, across.1, across.2]
    omega
  · rintro ⟨all, each⟩
    refine ⟨fun least => ?_, tiles.mpr all, fun p inside => ?_⟩
    · have negative : (c.grid {}).tileSize.toInt = -1 := congrArg Int32.toInt least
      rw [side, toInt_toInt32 small.2.2] at negative
      omega
    · change p.inBounds (c.grid {}).across = true at inside
      rw [Vec.inBounds_iff, across.1, across.2] at inside
      have hx : p.x.toInt = p.x.toInt.toNat := by omega
      have hy : p.y.toInt = p.y.toInt.toNat := by omega
      exact (cells hx hy (by omega) (by omega)).mpr (each _ (by omega) _ (by omega))

/-- The only tile of a single cell asks for room for the square of its width. -/
theorem canMake_iff_of_dot (dot : c.Dot) :
    Grid.canMake c.width c.height c.tileSize = true ↔
      Countable (c.tileSize.toNat * c.tileSize.toNat) := by
  obtain ⟨size, across⟩ := across_of_dot accepted dot {}
  have side := tileSize_grid accepted {}
  have wide := Grid.toInt_toInt32_of_le dot.2
  have := c.tileSize.toNat_lt
  generalize c.tileSize.toInt32 = t at side wide
  -- Below zero the width of the tile is what ends it, not the end of the grid.
  have extent : Grid.tileExtent Vec.one t Vec.zero = ⟨t, t⟩ := by
    have short : (if (1 : Int32) - 0 * t ≤ t then 1 - 0 * t else t) = t := by
      rw [Int32.zero_mul, Int32.sub_zero, if_neg]
      rw [Int32.le_iff_toInt_le, Int32.toInt_one]
      omega
    exact Vec.ext short short
  have square : 0 ≤ (t * t).toInt ↔ Countable (c.tileSize.toNat * c.tileSize.toNat) := by
    have split : ((c.tileSize.toNat : Int) - 4294967296) * (c.tileSize.toNat - 4294967296) =
        (c.tileSize.toNat * c.tileSize.toNat : Nat) +
          4294967296 * (4294967296 - 2 * c.tileSize.toNat) := by
      push_cast
      ring
    rw [Grid.nonneg_mul_iff, wide, split, Int.add_mul_emod_self_left, Countable]
    omega
  rw [Grid.canMake_iff c.width c.height c.tileSize {}, ← square]
  change ((c.grid {}).tileSize = -1 → _) ∧ 0 ≤ (c.grid {}).across.areaWord.toInt ∧
    (∀ p : Vec, p.inBounds (c.grid {}).across = true →
      0 ≤ (Grid.tileExtent (c.grid {}).size (c.grid {}).tileSize p).areaWord.toInt) ↔ _
  rw [across, size, side]
  constructor
  · rintro ⟨-, -, each⟩
    have first := each Vec.zero (by decide)
    rwa [extent] at first
  · intro room
    refine ⟨fun least => ?_, by decide, fun p inside => ?_⟩
    · show (c.grid {}).size.x + ((c.grid {}).tileSize - 1) ≠ _ ∧
        (c.grid {}).size.y + ((c.grid {}).tileSize - 1) ≠ _
      rw [size, side, least]
      decide
    · rw [Vec.eq_zero_of_inBounds inside, extent]
      exact room

theorem allocates_of_area (area : c.width.toNat * c.height.toNat < 2147483648) :
    c.Allocates := by
  obtain ⟨width, height, tile⟩ := sides_pos accepted
  have countable {m n : Nat} (hm : m ≤ c.width.toNat) (hn : n ≤ c.height.toNat) :
      Countable (m * n) := by
    have := Nat.mul_le_mul hm hn
    unfold Countable
    omega
  have few {side : UInt32} (positive : 0 < side.toNat) :
      (side.toNat + c.tileSize.toNat - 1) / c.tileSize.toNat ≤ side.toNat := by
    have := Nat.div_le_self (side.toNat - 1) c.tileSize.toNat
    rw [Grid.tiles_eq positive tile]
    omega
  refine ⟨countable (few width) (few height), fun column _ row _ => ?_⟩
  exact countable ((Nat.min_le_left _ _).trans (Nat.sub_le _ _))
    ((Nat.min_le_left _ _).trans (Nat.sub_le _ _))

omit accepted

/-- The widest tiles that a grid of three columns and three rows can have. -/
def widest : Config := { width := 3, height := 3, tileSize := 2147483645, workers := 1 }

/-- A grid of one tile, whose number of cells is a word below zero. -/
def vast : Config := { width := 50000, height := 50000, tileSize := 50000, workers := 1 }

/-- A grid of two columns and two rows. As a word with a sign, the width of its tiles is
minus one. -/
def hollow : Config := { width := 2, height := 2, tileSize := 4294967295, workers := 1 }

end Config

end FallingSand
