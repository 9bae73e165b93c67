import FallingSand.Proofs.Board.LockedTiles

/-!
# What locks cover

A region has the positions of its locked tiles, and its bounds enclose these positions and no
others. The block around a position covers everything that is no farther away than a tile is
wide, the lock of a rectangle covers the rectangle, and the lock of all tiles covers the grid.
On what it covers a region is the grid itself.
-/

namespace FallingSand

namespace Grid

section Axis

variable {a b s t first span : Int32}

/-- Positions that are no farther apart than a tile is wide are in the same tile or
in neighboring ones. -/
theorem tile_near (ha : 0 ≤ a.toInt) (hb : 0 ≤ b.toInt) (ht : 0 < t.toInt)
    (near : (b.toInt - a.toInt).natAbs ≤ t.toInt.toNat) :
    (a / t).toInt - 1 ≤ (b / t).toInt ∧ (b / t).toInt ≤ (a / t).toInt + 1 := by
  rw [toInt_tile ha ht, toInt_tile hb ht]
  have up {m n : Int} (h : n ≤ m + t.toInt) : n / t.toInt ≤ m / t.toInt + 1 := by
    calc n / t.toInt ≤ (m + t.toInt) / t.toInt := Int.ediv_le_ediv ht h
      _ = m / t.toInt + 1 := by
        rw [Int.add_ediv_of_dvd_right (Int.dvd_refl _), Int.ediv_self (by omega)]
  have := up (m := a.toInt) (n := b.toInt) (by omega)
  have := up (m := b.toInt) (n := a.toInt) (by omega)
  omega

/-- On one axis, the positions of some tiles are those between the first one of the first tile
and the last one of the last tile. -/
theorem between_bounds_iff (hs : 0 < s.toInt) (ht : 0 < t.toInt)
    (fits : s.toInt + t.toInt ≤ 2147483648) (hfirst : 0 ≤ first.toInt) (hspan : 0 ≤ span.toInt)
    (inGrid : first.toInt + span.toInt ≤ ((s + (t - 1)) / t).toInt) :
    ((0 ≤ a.toInt ∧ a.toInt < s.toInt) ∧
      first.toInt ≤ (a / t).toInt ∧ (a / t).toInt < first.toInt + span.toInt) ↔
    (first * t).toInt ≤ a.toInt ∧
      a.toInt ≤ ((if (first + span) * t ≤ s then (first + span) * t else s) - 1).toInt := by
  have one : (1 : Int32).toInt = 1 := rfl
  rw [toInt_across hs ht fits] at inGrid
  have whole : (first.toInt + span.toInt) * t.toInt ≤ s.toInt - 1 + t.toInt := by
    have := Int.ediv_mul_le (s.toInt - 1) (by omega : t.toInt ≠ 0)
    calc (first.toInt + span.toInt) * t.toInt ≤ ((s.toInt - 1) / t.toInt + 1) * t.toInt :=
          Int.mul_le_mul_of_nonneg_right inGrid ht.le
      _ ≤ s.toInt - 1 + t.toInt := by rw [Int.add_mul, Int.one_mul]; omega
  have start : first.toInt * t.toInt ≤ (first.toInt + span.toInt) * t.toInt :=
    Int.mul_le_mul_of_nonneg_right (by omega) ht.le
  have nonneg := Int.mul_nonneg hfirst ht.le
  have least : first.toInt + span.toInt ≤ (first.toInt + span.toInt) * t.toInt :=
    le_mul_of_one_le_right (by omega) (by omega)
  -- Nothing wraps, since rounding the side up to whole tiles does not.
  have sum : (first + span).toInt = first.toInt + span.toInt := by
    apply toInt_add_of_fits <;> omega
  have low' : (first * t).toInt = first.toInt * t.toInt := by
    apply toInt_mul_of_fits <;> omega
  have high' : ((first + span) * t).toInt = (first.toInt + span.toInt) * t.toInt := by
    rw [toInt_mul_of_fits] <;> rw [sum] <;> omega
  have last : ((if (first + span) * t ≤ s then (first + span) * t else s) - 1).toInt =
      min ((first.toInt + span.toInt) * t.toInt) s.toInt - 1 := by
    have := s.toInt_lt
    simp only [Int32.le_iff_toInt_le, high']
    rw [toInt_sub_of_fits] <;> rw [one] <;> split <;> omega
  rw [low', last]
  constructor
  · rintro ⟨inside, above, below⟩
    rw [toInt_tile inside.1 ht] at above below
    have := (Int.le_ediv_iff_mul_le ht).mp above
    have := (Int.ediv_lt_iff_lt_mul ht).mp below
    omega
  · rintro ⟨above, below⟩
    have inside : 0 ≤ a.toInt ∧ a.toInt < s.toInt := by omega
    rw [toInt_tile inside.1 ht]
    exact ⟨inside, (Int.le_ediv_iff_mul_le ht).mpr above,
      (Int.ediv_lt_iff_lt_mul ht).mpr (by omega)⟩

end Axis

variable {g : Grid}

namespace Shaped

variable (shaped : g.Shaped)

include shaped

/-- A region has the positions of the tiles that are asked for. -/
theorem contains_iff {l : Locking} (ordered : l.Ordered) {p : Vec}
    (inside : p.inBounds g.size = true) :
    (Region.mk g (l.lock g)).contains p = true ↔ l.Asks g (g.tileAt p) := by
  rw [Region.contains, inside, Bool.true_and]
  exact shaped.has_lock_iff ordered (shaped.tileAt_inBounds inside)

/-- The block around a position covers what is no farther away than a tile is
wide. -/
theorem contains_lockBlock {target p : Vec} (inside : target.inBounds g.size = true)
    (hp : p.inBounds g.size = true) (near : Vec.Near target p g.tileSize.toInt.toNat) :
    (Region.mk g (g.lockBlock target)).contains p = true := by
  have ht := (Vec.inBounds_iff _ _).mp inside
  have hq := (Vec.inBounds_iff _ _).mp hp
  -- On either axis the tile of `p` is that of the target or next to it.
  have nearX : _ ≤ (g.tileAt p).x.toInt ∧ (g.tileAt p).x.toInt ≤ _ :=
    tile_near ht.1.1 hq.1.1 shaped.side near.1
  have nearY : _ ≤ (g.tileAt p).y.toInt ∧ (g.tileAt p).y.toInt ≤ _ :=
    tile_near ht.2.1 hq.2.1 shaped.side near.2
  refine (shaped.contains_iff (l := .block target) trivial hp).mpr ⟨target, .self inside, ?_⟩
  simp only [Vec.Near, tileAt, Vec.divide] at nearX nearY ⊢
  omega

/-- The lock of a rectangle covers what lies between its corners. -/
theorem contains_lockRect {low high p : Vec} (hlow : low.inBounds g.size = true)
    (hhigh : high.inBounds g.size = true) (hp : p.inBounds g.size = true)
    (x : low.x.toInt ≤ p.x.toInt ∧ p.x.toInt ≤ high.x.toInt)
    (y : low.y.toInt ≤ p.y.toInt ∧ p.y.toInt ≤ high.y.toInt) :
    (Region.mk g (g.lockRect low high)).contains p = true := by
  have ordered : (Locking.rectangle low high).Ordered :=
    ⟨x.1.trans x.2, y.1.trans y.2⟩
  exact (shaped.contains_iff ordered hp).mpr
    ⟨low, high, .self hlow, .self hhigh, p, Vec.mem_rectangle.mpr ⟨x, y⟩, rfl⟩

/-- The lock of all tiles covers the grid. -/
theorem contains_lockAll {p : Vec} (hp : p.inBounds g.size = true) :
    (Region.mk g g.lockAll).contains p = true :=
  (shaped.contains_iff (l := .whole) trivial hp).mpr trivial

end Shaped

/-! ## Grids of the same form -/

variable {h : Grid}

/-- Grids with tiles of the same form. -/
structure Alike (g h : Grid) : Prop where
  size : h.size = g.size
  tileSize : h.tileSize = g.tileSize
  across : h.across = g.across

namespace Alike

theorem lockedTiles (alike : Alike g h) (lock : Lock) :
    h.lockedTiles lock = g.lockedTiles lock := by
  have numbers : h.tileNumber = g.tileNumber := by
    funext tile
    rw [tileNumber, alike.across, tileNumber]
  rw [Grid.lockedTiles, numbers, Grid.lockedTiles]

theorem lockBlock (alike : Alike g h) (target : Vec) : h.lockBlock target = g.lockBlock target := by
  unfold Grid.lockBlock Grid.lockTiles tileOf tileAt
  rw [alike.size, alike.tileSize, alike.across]

theorem slot (alike : Alike g h) (p : Vec) : h.slot p = g.slot p := by
  unfold Grid.slot tileNumber tileAt
  rw [alike.size, alike.tileSize, alike.across]

theorem trans {k : Grid} (first : Alike g h) (second : Alike h k) : Alike g k :=
  ⟨second.size.trans first.size, second.tileSize.trans first.tileSize,
    second.across.trans first.across⟩

theorem lock (alike : Alike g h) (l : Locking) : l.lock h = l.lock g := by
  cases l with
  | block p => exact alike.lockBlock p
  | rectangle low high =>
    unfold Locking.lock lockRect lockTiles tileOf tileAt
    rw [alike.size, alike.tileSize, alike.across]
  | whole =>
    unfold Locking.lock lockAll lockTiles
    rw [alike.across]

end Alike

end Grid

/-! ## Regions -/

namespace Region

theorem inBounds_of_contains {r : Region} {p : Vec} (h : r.contains p = true) :
    p.inBounds r.grid.size = true := by
  simp only [contains, Bool.and_eq_true] at h
  exact h.1

/-- On the locked tiles a region is the grid. -/
theorem cell?_of_contains {r : Region} {p : Vec} (h : r.contains p = true) :
    r.cell? p = r.grid.cell? p := by
  simp [cell?, Grid.cell?, h, inBounds_of_contains h]

theorem write_of_contains {r : Region} {p : Vec} (h : r.contains p = true) (cell : Cell) :
    r.write p cell = { r with grid := r.grid.writeSlot (r.grid.slot p) cell } := by
  simp [write, h]

/-- A region of a well-formed grid has a cell where it has the position. -/
theorem isSome_cell?_iff {r : Region} (wf : r.grid.WellFormed) {p : Vec} :
    (r.cell? p).isSome = true ↔ r.contains p = true := by
  constructor
  · intro found
    by_contra outside
    rw [cell?, if_neg outside] at found
    cases found
  · intro inside
    obtain ⟨cell, found⟩ := wf.exists_cell (inBounds_of_contains inside)
    rw [cell?_of_contains inside, found]
    rfl

/-- The bounds of a region enclose its positions and no others. -/
theorem contains_iff_mem_bounds {r : Region} (shaped : r.grid.Shaped)
    (within : r.lock.Within r.grid.across) {p : Vec} :
    r.contains p = true ↔ p ∈ Vec.rectangle r.bounds.1 r.bounds.2 := by
  have columns := within.columns
  have rows := within.rows
  rw [shaped.across] at columns rows
  have x := Grid.between_bounds_iff (a := p.x) shaped.width.1 shaped.side shaped.width.2 columns.1.1
    columns.1.2 columns.2
  have y := Grid.between_bounds_iff (a := p.y) shaped.height.1 shaped.side shaped.height.2 rows.1.1
    rows.1.2 rows.2
  rw [Vec.mem_rectangle]
  refine Iff.trans ?_ (and_congr x y)
  rw [contains, Bool.and_eq_true]
  constructor
  · rintro ⟨inside, locked⟩
    have tiles := (within.has_iff (shaped.tileAt_inBounds inside)).mp locked
    rw [Vec.inBounds_iff] at inside
    exact ⟨⟨inside.1, tiles.1⟩, inside.2, tiles.2⟩
  · rintro ⟨⟨insideX, tileX⟩, insideY, tileY⟩
    have inside := (Vec.inBounds_iff p r.grid.size).mpr ⟨insideX, insideY⟩
    exact ⟨inside, (within.has_iff (shaped.tileAt_inBounds inside)).mpr ⟨tileX, tileY⟩⟩

/-- What is locked at the place of a tile among the locked ones is that tile. -/
theorem getElem?_lockedTiles {r : Region} {p : Vec} (h : r.contains p = true) :
    (r.grid.lockedTiles r.lock)[(r.grid.tileAt p - r.lock.low).place r.lock.span]? =
      some (r.grid.slot p).1 := by
  rw [contains, Bool.and_eq_true] at h
  rw [Grid.lockedTiles, Lock.tiles, List.map_map, List.getElem?_map,
    Vec.getElem?_positions_place h.2]
  show some (r.grid.tileNumber (r.lock.low + (r.grid.tileAt p - r.lock.low))) = _
  rw [Vec.add_sub_cancel]
  rfl

end Region

end FallingSand
