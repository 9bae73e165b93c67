import FallingSand.Proofs.Board.Tiles

/-!
# The tiles that are locked

A lock has the tiles between two ends, as far as the grid has them: the block around a
position those next to the tile of the position, the lock of a rectangle those that meet the
rectangle, and the lock of the whole grid all of them. It takes them row by row, and their
numbers grow in that order. So everybody takes the tiles that he needs in ascending order, and
nobody can wait for a tile while he holds one that its owner waits for.
-/

namespace FallingSand

/-! ## Nearest positions -/

/-- The coordinate on an axis of some length that is nearest to an integer. -/
def clampTo (side a : Int) : Int := max 0 (min a (side - 1))

/-- Whether `c` is the position inside a size that is nearest to `p`. -/
def Vec.Nearest (size p c : Vec) : Prop :=
  c.x.toInt = clampTo size.x.toInt p.x.toInt ∧ c.y.toInt = clampTo size.y.toInt p.y.toInt

namespace Vec.Nearest

variable {size p c d : Vec}

theorem inBounds (nearest : Nearest size p c) (hx : 0 < size.x.toInt) (hy : 0 < size.y.toInt) :
    c.inBounds size = true := by
  obtain ⟨x, y⟩ := nearest
  unfold clampTo at x y
  rw [inBounds_iff]
  omega

theorem unique (nearest : Nearest size p c) (other : Nearest size p d) : c = d :=
  Vec.ext (Int32.toInt_inj.mp (nearest.1.trans other.1.symm))
    (Int32.toInt_inj.mp (nearest.2.trans other.2.symm))

/-- The nearest position of the grid to one of its own is that position. -/
theorem self (inside : p.inBounds size = true) : Nearest size p p := by
  rw [inBounds_iff] at inside
  unfold Nearest clampTo
  omega

end Vec.Nearest

namespace Grid

/-! ## One axis -/

section Axis

variable {a b s t tile low high across : Int32}

/-- The nearest coordinate of the grid, as words find it. -/
theorem toInt_clamp (hs : 0 < s.toInt) :
    (if (if a ≤ 0 then 0 else a) ≤ s - 1 then (if a ≤ 0 then 0 else a) else s - 1).toInt =
      clampTo s.toInt a.toInt := by
  rw [toInt_min_pred hs.le, toInt_max_zero]
  unfold clampTo
  omega

/-- On one axis, the first tile of a lock and the number of its tiles. Each word is read as
the integer it stands for, innermost first; nothing wraps. -/
theorem toInt_locked (inGrid : 0 ≤ across.toInt)
    (hlow : -1 ≤ low.toInt ∧ low.toInt ≤ across.toInt)
    (hhigh : -1 ≤ high.toInt ∧ high.toInt ≤ across.toInt) :
    let first := if low ≤ 0 then 0 else low
    let last := if high ≤ across - 1 then high else across - 1
    let span := if last - first + 1 ≤ 0 then 0 else last - first + 1
    first.toInt = max low.toInt 0 ∧
      span.toInt = max (min high.toInt (across.toInt - 1) - max low.toInt 0 + 1) 0 := by
  intro first last span
  have one : (1 : Int32).toInt = 1 := rfl
  have := across.toInt_lt
  have first' : first.toInt = max low.toInt 0 := toInt_max_zero low
  have last' : last.toInt = min high.toInt (across.toInt - 1) := toInt_min_pred inGrid
  have length : (last - first).toInt = last.toInt - first.toInt := by
    apply toInt_sub_of_fits <;> omega
  have count : (last - first + 1).toInt = last.toInt - first.toInt + 1 := by
    rw [toInt_add_of_fits] <;> rw [length, one] <;> omega
  refine ⟨first', ?_⟩
  rw [show span.toInt = max (last - first + 1).toInt 0 from toInt_max_zero _, count, last', first']

/-- On one axis, the tiles of a lock are those between its ends. -/
theorem locked_iff (htile : 0 ≤ tile.toInt ∧ tile.toInt < across.toInt)
    (hlow : -1 ≤ low.toInt ∧ low.toInt ≤ across.toInt)
    (hhigh : -1 ≤ high.toInt ∧ high.toInt ≤ across.toInt) :
    let first := if low ≤ 0 then 0 else low
    let last := if high ≤ across - 1 then high else across - 1
    let span := if last - first + 1 ≤ 0 then 0 else last - first + 1
    (0 ≤ (tile - first).toInt ∧ (tile - first).toInt < span.toInt) ↔
      low.toInt ≤ tile.toInt ∧ tile.toInt ≤ high.toInt := by
  intro first last span
  obtain ⟨first', span'⟩ : first.toInt = _ ∧ span.toInt = _ :=
    toInt_locked (by omega) hlow hhigh
  have := across.toInt_lt
  have offset : (tile - first).toInt = tile.toInt - first.toInt := by
    apply toInt_sub_of_fits <;> omega
  omega

/-- On one axis, the tiles from that of one position to that of a later one are those of the
positions between them. -/
theorem tiles_between_iff {k : Int32} (ha : 0 ≤ a.toInt) (ht : 0 < t.toInt) (hk : 0 ≤ k.toInt)
    (ordered : a.toInt ≤ b.toInt) :
    ((a / t).toInt ≤ k.toInt ∧ k.toInt ≤ (b / t).toInt) ↔
      ∃ c : Int32, (a.toInt ≤ c.toInt ∧ c.toInt ≤ b.toInt) ∧ k = c / t := by
  rw [toInt_tile ha ht, toInt_tile (by omega) ht]
  constructor
  · rintro ⟨above, below⟩
    have upTo := (Int.le_ediv_iff_mul_le ht).mp below
    have nonneg := Int.mul_nonneg hk ht.le
    have := b.toInt_lt
    have start : (k * t).toInt = k.toInt * t.toInt := by
      apply toInt_mul_of_fits <;> omega
    -- It is the first position of the tile, unless that comes before all of them.
    by_cases first : a.toInt ≤ k.toInt * t.toInt
    · refine ⟨k * t, by omega, Int32.toInt_inj.mp ?_⟩
      rw [toInt_tile (by omega) ht, start, Int.mul_ediv_cancel _ (by omega)]
    · refine ⟨a, ⟨le_rfl, ordered⟩, Int32.toInt_inj.mp ?_⟩
      have := (Int.le_ediv_iff_mul_le (a := k.toInt) (b := a.toInt) ht).mpr (by omega)
      rw [toInt_tile ha ht]
      omega
  · rintro ⟨c, ⟨above, below⟩, rfl⟩
    rw [toInt_tile (by omega) ht]
    exact ⟨Int.ediv_le_ediv ht above, Int.ediv_le_ediv ht below⟩

end Axis

end Grid

/-! ## Locks of tiles that a grid has -/

namespace Lock

/-- A lock of tiles that a grid has. -/
structure Within (lock : Lock) (across : Vec) : Prop where
  columns : (0 ≤ lock.low.x.toInt ∧ 0 ≤ lock.span.x.toInt) ∧
    lock.low.x.toInt + lock.span.x.toInt ≤ across.x.toInt
  rows : (0 ≤ lock.low.y.toInt ∧ 0 ≤ lock.span.y.toInt) ∧
    lock.low.y.toInt + lock.span.y.toInt ≤ across.y.toInt

variable {lock : Lock} {across tile : Vec}

/-- Only the locked tiles are listed. -/
theorem mem_tiles : tile ∈ lock.tiles ↔ lock.has tile = true := by
  rw [Lock.tiles, List.mem_map, Lock.has]
  constructor
  · rintro ⟨d, member, rfl⟩
    rw [Vec.add_sub_self_left]
    exact Vec.mem_positions.mp member
  · intro inside
    exact ⟨tile - lock.low, Vec.mem_positions.mpr inside, Vec.add_sub_cancel _ _⟩

namespace Within

variable (within : lock.Within across)

include within

theorem has_iff (inside : tile.inBounds across = true) : lock.has tile = true ↔
    (lock.low.x.toInt ≤ tile.x.toInt ∧
      tile.x.toInt < lock.low.x.toInt + lock.span.x.toInt) ∧
    lock.low.y.toInt ≤ tile.y.toInt ∧
      tile.y.toInt < lock.low.y.toInt + lock.span.y.toInt := by
  obtain ⟨columns, rows⟩ := within
  rw [Vec.inBounds_iff] at inside
  have := across.x.toInt_lt
  have := across.y.toInt_lt
  have x : (tile.x - lock.low.x).toInt = tile.x.toInt - lock.low.x.toInt := by
    apply toInt_sub_of_fits <;> omega
  have y : (tile.y - lock.low.y).toInt = tile.y.toInt - lock.low.y.toInt := by
    apply toInt_sub_of_fits <;> omega
  rw [Lock.has, Vec.inBounds_iff, Vec.sub_x, Vec.sub_y, x, y]
  omega

/-- Every tile that is locked is a tile of the grid. -/
theorem inBounds_of_mem (member : tile ∈ lock.tiles) : tile.inBounds across = true := by
  obtain ⟨columns, rows⟩ := within
  obtain ⟨d, inside, rfl⟩ := List.mem_map.mp member
  rw [Vec.mem_positions, Vec.inBounds_iff] at inside
  have := across.x.toInt_lt
  have := across.y.toInt_lt
  have x : (lock.low.x + d.x).toInt = lock.low.x.toInt + d.x.toInt := by
    apply toInt_add_of_fits <;> omega
  have y : (lock.low.y + d.y).toInt = lock.low.y.toInt + d.y.toInt := by
    apply toInt_add_of_fits <;> omega
  rw [Vec.inBounds_iff, Vec.add_x, Vec.add_y, x, y]
  omega

/-- The number of a tile that is some columns and rows from the first one. -/
theorem place_add {column row : Nat} (hc : column < lock.span.columns)
    (hr : row < lock.span.rows) : (lock.low + Vec.ofNat column row).place across =
      (lock.low.y.toInt.toNat + row) * across.columns + (lock.low.x.toInt.toNat + column) := by
  obtain ⟨columns, rows⟩ := within
  have := across.x.toInt_lt
  have := across.y.toInt_lt
  simp only [Vec.columns, Vec.rows, Int32.toNatClampNeg] at hc hr
  have x : (lock.low.x + Int32.ofNat column).toInt = lock.low.x.toInt + column := by
    rw [toInt_add_of_fits] <;> rw [Int32.toInt_ofNat_of_lt (by omega)] <;> omega
  have y : (lock.low.y + Int32.ofNat row).toInt = lock.low.y.toInt + row := by
    rw [toInt_add_of_fits] <;> rw [Int32.toInt_ofNat_of_lt (by omega)] <;> omega
  simp only [Vec.place, Vec.add_x, Vec.add_y, Vec.ofNat, Int32.toNatClampNeg, x, y]
  rw [Int.toNat_add columns.1.1 (by omega), Int.toNat_add rows.1.1 (by omega)]
  simp

/-- Row by row, the numbers of the locked tiles ascend. -/
theorem ascending : (lock.tiles.map (·.place across)).Pairwise (· < ·) := by
  have columns := within.columns
  simp only [Lock.tiles, Vec.positions, List.map_flatMap, List.map_map, Function.comp_def]
  refine List.pairwise_flatMap.mpr ⟨?_, ?_⟩
  · intro row hr
    rw [List.mem_range] at hr
    refine List.pairwise_map.mpr (List.pairwise_lt_range.imp_of_mem ?_)
    intro first second hfirst hsecond before
    rw [List.mem_range] at hfirst hsecond
    rw [within.place_add hfirst hr, within.place_add hsecond hr]
    omega
  · refine List.pairwise_lt_range.imp_of_mem ?_
    intro upper lower hupper hlower before n hn m hm
    rw [List.mem_range] at hupper hlower
    obtain ⟨first, hfirst, rfl⟩ := List.mem_map.mp hn
    obtain ⟨second, hsecond, rfl⟩ := List.mem_map.mp hm
    rw [List.mem_range] at hfirst hsecond
    rw [within.place_add hfirst hupper, within.place_add hsecond hlower]
    -- A row ends before the next one begins.
    have room : lock.low.x.toInt.toNat + first < across.columns := by
      simp only [Vec.columns, Int32.toNatClampNeg] at hfirst ⊢
      omega
    have next : (lock.low.y.toInt.toNat + upper + 1) * across.columns ≤
        (lock.low.y.toInt.toNat + lower) * across.columns := Nat.mul_le_mul_right _ (by omega)
    rw [Nat.succ_mul] at next
    omega

end Within

end Lock

namespace Grid

/-! ## Ways to lock tiles -/

/-- A way to lock tiles of a grid. -/
inductive Locking where
  | block (p : Vec)
  | rectangle (low high : Vec)
  | whole

namespace Locking

/-- The lock that is got. -/
def lock (g : Grid) : Locking → Lock
  | block p => g.lockBlock p
  | rectangle low high => g.lockRect low high
  | whole => g.lockAll

/-- Whether the corners of a rectangle are in order. -/
def Ordered : Locking → Prop
  | rectangle low high => low.x.toInt ≤ high.x.toInt ∧ low.y.toInt ≤ high.y.toInt
  | _ => True

/-- Which tiles are asked for: those around the tile of a position, those of the positions of
a rectangle, or all of them. What lies outside the grid counts as what is nearest to it. -/
def Asks (g : Grid) (tile : Vec) : Locking → Prop
  | block p => ∃ c, Vec.Nearest g.size p c ∧ Vec.Near (g.tileAt c) tile 1
  | rectangle low high => ∃ a b, Vec.Nearest g.size low a ∧ Vec.Nearest g.size high b ∧
      ∃ p ∈ Vec.rectangle a b, tile = g.tileAt p
  | whole => True

/-- The ends between which the tiles lie. -/
def ends (g : Grid) : Locking → Vec × Vec
  | block p => (g.tileOf p - Vec.one, g.tileOf p + Vec.one)
  | rectangle low high => (g.tileOf low, g.tileOf high)
  | whole => (Vec.zero, g.across - Vec.one)

theorem lock_eq (g : Grid) (l : Locking) : l.lock g = g.lockTiles (l.ends g).1 (l.ends g).2 := by
  cases l <;> rfl

end Locking

variable {g : Grid} {low high tile : Vec}

/-- Whether a tile is one of the grid or lies right beside it. -/
def Beside (g : Grid) (tile : Vec) : Prop :=
  (-1 ≤ tile.x.toInt ∧ tile.x.toInt ≤ g.across.x.toInt) ∧
    -1 ≤ tile.y.toInt ∧ tile.y.toInt ≤ g.across.y.toInt

theorem beside_of_inBounds (inside : tile.inBounds g.across = true) : g.Beside tile := by
  rw [Vec.inBounds_iff] at inside
  unfold Beside
  omega

/-- A position has the tile of the position in the grid that is nearest to it. -/
theorem exists_nearest (hx : 0 < g.size.x.toInt) (hy : 0 < g.size.y.toInt) (p : Vec) :
    ∃ c, Vec.Nearest g.size p c ∧ g.tileOf p = g.tileAt c :=
  ⟨(p.max Vec.zero).min (g.size - Vec.one), ⟨toInt_clamp hx, toInt_clamp hy⟩, rfl⟩

theorem lockTiles_low (g : Grid) (low high : Vec) : (g.lockTiles low high).low =
    ⟨if low.x ≤ 0 then 0 else low.x, if low.y ≤ 0 then 0 else low.y⟩ := rfl

theorem lockTiles_span (g : Grid) (low high : Vec) : (g.lockTiles low high).span =
    let first (a : Int32) := if a ≤ 0 then 0 else a
    let last (a n : Int32) := if a ≤ n - 1 then a else n - 1
    ⟨first (last high.x g.across.x - first low.x + 1),
      first (last high.y g.across.y - first low.y + 1)⟩ := rfl

theorem within_lockTiles (hx : 0 ≤ g.across.x.toInt) (hy : 0 ≤ g.across.y.toInt)
    (hlow : g.Beside low) (hhigh : g.Beside high) : (g.lockTiles low high).Within g.across := by
  obtain ⟨firstX, spanX⟩ := toInt_locked hx hlow.1 hhigh.1
  obtain ⟨firstY, spanY⟩ := toInt_locked hy hlow.2 hhigh.2
  unfold Beside at hlow hhigh
  refine ⟨?_, ?_⟩
  · simp only [lockTiles_low, lockTiles_span, firstX, spanX]
    omega
  · simp only [lockTiles_low, lockTiles_span, firstY, spanY]
    omega

theorem has_lockTiles_iff (hlow : g.Beside low) (hhigh : g.Beside high)
    (inside : tile.inBounds g.across = true) :
    (g.lockTiles low high).has tile = true ↔ tile ∈ Vec.rectangle low high := by
  have bounds := (Vec.inBounds_iff _ _).mp inside
  have x := locked_iff bounds.1 hlow.1 hhigh.1
  have y := locked_iff bounds.2 hlow.2 hhigh.2
  rw [Lock.has, Vec.inBounds_iff, Vec.mem_rectangle, lockTiles_low, lockTiles_span]
  exact and_congr x y

/-- The tiles around a tile are those that differ from it by at most one in either
direction. -/
theorem mem_around_iff {center : Vec} (inside : center.inBounds g.across = true) :
    tile ∈ Vec.rectangle (center - Vec.one) (center + Vec.one) ↔ Vec.Near center tile 1 := by
  rw [Vec.inBounds_iff] at inside
  have lowX : (center - Vec.one).x.toInt = _ := toInt_pred inside.1.1
  have lowY : (center - Vec.one).y.toInt = _ := toInt_pred inside.2.1
  have highX : (center + Vec.one).x.toInt = _ := toInt_succ inside.1.2
  have highY : (center + Vec.one).y.toInt = _ := toInt_succ inside.2.2
  rw [Vec.mem_rectangle, lowX, lowY, highX, highY]
  unfold Vec.Near
  omega

namespace Shaped

variable (shaped : g.Shaped)

include shaped

theorem tileOf_inBounds (p : Vec) : (g.tileOf p).inBounds g.across = true := by
  obtain ⟨c, nearest, same⟩ := exists_nearest shaped.width.1 shaped.height.1 p
  rw [same]
  exact shaped.tileAt_inBounds (nearest.inBounds shaped.width.1 shaped.height.1)

/-- The tiles from that of one corner of a rectangle to that of the other one are those that
meet the rectangle. -/
theorem mem_tiles_of_rectangle_iff {a b : Vec} (ha : a.inBounds g.size = true)
    (ordered : a.x.toInt ≤ b.x.toInt ∧ a.y.toInt ≤ b.y.toInt)
    (inside : tile.inBounds g.across = true) :
    tile ∈ Vec.rectangle (g.tileAt a) (g.tileAt b) ↔
      ∃ p ∈ Vec.rectangle a b, tile = g.tileAt p := by
  rw [Vec.inBounds_iff] at ha inside
  have x := tiles_between_iff ha.1.1 shaped.side inside.1.1 ordered.1
  have y := tiles_between_iff ha.2.1 shaped.side inside.2.1 ordered.2
  rw [Vec.mem_rectangle]
  constructor
  · rintro ⟨hx, hy⟩
    obtain ⟨column, betweenX, sameX⟩ := x.mp hx
    obtain ⟨row, betweenY, sameY⟩ := y.mp hy
    exact ⟨⟨column, row⟩, Vec.mem_rectangle.mpr ⟨betweenX, betweenY⟩, Vec.ext sameX sameY⟩
  · rintro ⟨p, member, rfl⟩
    have between := Vec.mem_rectangle.mp member
    exact ⟨x.mpr ⟨p.x, between.1, rfl⟩, y.mpr ⟨p.y, between.2, rfl⟩⟩

theorem beside_ends (l : Locking) : g.Beside (l.ends g).1 ∧ g.Beside (l.ends g).2 := by
  cases l with
  | block p =>
    have center := (Vec.inBounds_iff _ _).mp (shaped.tileOf_inBounds p)
    have lowX : (g.tileOf p - Vec.one).x.toInt = _ := toInt_pred center.1.1
    have lowY : (g.tileOf p - Vec.one).y.toInt = _ := toInt_pred center.2.1
    have highX : (g.tileOf p + Vec.one).x.toInt = _ := toInt_succ center.1.2
    have highY : (g.tileOf p + Vec.one).y.toInt = _ := toInt_succ center.2.2
    simp only [Locking.ends, Beside, lowX, lowY, highX, highY]
    omega
  | rectangle low high =>
    exact ⟨beside_of_inBounds (shaped.tileOf_inBounds low),
      beside_of_inBounds (shaped.tileOf_inBounds high)⟩
  | whole =>
    have inside := (Vec.inBounds_iff _ _).mp (shaped.tileOf_inBounds Vec.zero)
    have zeroX : Vec.zero.x.toInt = 0 := rfl
    have zeroY : Vec.zero.y.toInt = 0 := rfl
    have lastX : (g.across - Vec.one).x.toInt = _ := toInt_pred (a := g.across.x) (by omega)
    have lastY : (g.across - Vec.one).y.toInt = _ := toInt_pred (a := g.across.y) (by omega)
    simp only [Locking.ends, Beside, zeroX, zeroY, lastX, lastY]
    omega

theorem within_lock (l : Locking) : (l.lock g).Within g.across := by
  have inside := (Vec.inBounds_iff _ _).mp (shaped.tileOf_inBounds Vec.zero)
  obtain ⟨hlow, hhigh⟩ := shaped.beside_ends l
  rw [l.lock_eq]
  exact within_lockTiles (by omega) (by omega) hlow hhigh

/-- The tiles of a lock are those that are asked for. -/
theorem has_lock_iff {l : Locking} (ordered : l.Ordered)
    (inside : tile.inBounds g.across = true) : (l.lock g).has tile = true ↔ l.Asks g tile := by
  obtain ⟨hlow, hhigh⟩ := shaped.beside_ends l
  rw [l.lock_eq, has_lockTiles_iff hlow hhigh inside]
  cases l with
  | block p =>
    obtain ⟨c, nearest, same⟩ := exists_nearest shaped.width.1 shaped.height.1 p
    have around : tile ∈ Vec.rectangle (g.tileOf p - Vec.one) (g.tileOf p + Vec.one) ↔
        Vec.Near (g.tileOf p) tile 1 := mem_around_iff (shaped.tileOf_inBounds p)
    rw [same] at around
    simp only [Locking.ends, same]
    rw [around]
    constructor
    · exact fun near => ⟨c, nearest, near⟩
    · rintro ⟨d, other, near⟩
      rwa [nearest.unique other]
  | rectangle low high =>
    obtain ⟨a, nearestA, sameA⟩ := exists_nearest shaped.width.1 shaped.height.1 low
    obtain ⟨b, nearestB, sameB⟩ := exists_nearest shaped.width.1 shaped.height.1 high
    have inOrder : a.x.toInt ≤ b.x.toInt ∧ a.y.toInt ≤ b.y.toInt := by
      rw [nearestA.1, nearestA.2, nearestB.1, nearestB.2]
      unfold clampTo
      unfold Locking.Ordered at ordered
      omega
    simp only [Locking.ends, sameA, sameB]
    rw [shaped.mem_tiles_of_rectangle_iff
      (nearestA.inBounds shaped.width.1 shaped.height.1) inOrder inside]
    constructor
    · exact fun meets => ⟨a, b, nearestA, nearestB, meets⟩
    · rintro ⟨a', b', otherA, otherB, meets⟩
      rwa [nearestA.unique otherA, nearestB.unique otherB]
  | whole => exact iff_of_true (Vec.mem_rectangle_whole inside) trivial

end Shaped

end Grid

end FallingSand
