import FallingSand.Board.Grid
import FallingSand.Proofs.Geometry.Bounds
import Mathlib.Tactic.Linarith

/-!
# The laws of tiled grids

A grid is well formed if its tiles cover its size exactly: the slots of its
positions exist, and different positions have different slots. So a grid too is
an honest partial map from positions to cells, `Grid.cell?`, and a region is the
restriction of that map to the locked tiles. Writes keep the form of a grid.
-/

namespace FallingSand

namespace Grid

/-- A grid whose tiles cover its size. The sides are far enough from the end of
the words that rounding a side up to whole tiles does not wrap. -/
structure Shaped (g : Grid) : Prop where
  side : 0 < g.tileSize.toInt
  width : 0 < g.size.x.toInt ∧ g.size.x.toInt + g.tileSize.toInt ≤ 2147483648
  height : 0 < g.size.y.toInt ∧ g.size.y.toInt + g.tileSize.toInt ≤ 2147483648
  across : g.across = tilesAcross g.size g.tileSize

/-- A grid whose tiles cover its size and have all of its cells, the number of which
is a word too. -/
structure WellFormed (g : Grid) : Prop extends g.Shaped where
  room : g.size.area < 2147483648
  tiles : ∀ tile, tile.inBounds g.across = true → ∃ cells,
    g.tiles[g.tileNumber tile]? = some cells ∧
      cells.size = (tileExtent g.size g.tileSize tile).area

/-! ## One axis -/

section Axis

variable {a s t : Int32}

theorem toInt_tile (ha : 0 ≤ a.toInt) (ht : 0 < t.toInt) :
    (a / t).toInt = a.toInt / t.toInt :=
  toInt_div_of_nonneg ha ht.le

/-- The number of tiles along a side. -/
theorem toInt_across (hs : 0 < s.toInt) (ht : 0 < t.toInt)
    (fits : s.toInt + t.toInt ≤ 2147483648) :
    ((s + (t - 1)) / t).toInt = (s.toInt - 1) / t.toInt + 1 := by
  have last := toInt_pred ht.le
  have sum : (s + (t - 1)).toInt = s.toInt - 1 + t.toInt := by
    rw [toInt_add_of_fits] <;> rw [last] <;> omega
  -- Rounding up is rounding down of one less, plus one.
  rw [toInt_tile (by omega) ht, sum, Int.add_ediv_of_dvd_right (Int.dvd_refl _),
    Int.ediv_self (by omega)]

theorem tile_lt_across (ha : 0 ≤ a.toInt ∧ a.toInt < s.toInt) (ht : 0 < t.toInt)
    (fits : s.toInt + t.toInt ≤ 2147483648) :
    0 ≤ (a / t).toInt ∧ (a / t).toInt < ((s + (t - 1)) / t).toInt := by
  rw [toInt_across (by omega) ht fits, toInt_tile ha.1 ht]
  have : a.toInt / t.toInt ≤ (s.toInt - 1) / t.toInt :=
    Int.ediv_le_ediv ht (by omega)
  exact ⟨Int.ediv_nonneg ha.1 ht.le, by omega⟩

/-- The first position of the tile of a position. -/
theorem toInt_origin (ha : 0 ≤ a.toInt) (ht : 0 < t.toInt) :
    (a / t * t).toInt = a.toInt - a.toInt % t.toInt ∧ 0 ≤ (a / t * t).toInt := by
  have tile := toInt_tile ha ht
  have split := Int.ediv_mul_add_emod a.toInt t.toInt
  have := Int.emod_nonneg a.toInt (by omega : t.toInt ≠ 0)
  have := Int.ediv_nonneg ha ht.le
  -- The product does not wrap, since it is at most the position itself.
  have nonneg : 0 ≤ a.toInt / t.toInt * t.toInt := Int.mul_nonneg this ht.le
  have := a.toInt_lt
  have exact : (a / t * t).toInt = a.toInt / t.toInt * t.toInt := by
    rw [toInt_mul_of_fits] <;> rw [tile] <;> omega
  omega

/-- The place of a position in its tile, and the room there. -/
theorem inside_tile (ha : 0 ≤ a.toInt ∧ a.toInt < s.toInt) (ht : 0 < t.toInt) :
    0 ≤ (a - a / t * t).toInt ∧
      (a - a / t * t).toInt < (if s - a / t * t ≤ t then s - a / t * t else t).toInt := by
  obtain ⟨origin, nonneg⟩ := toInt_origin ha.1 ht
  have := Int.emod_nonneg a.toInt (by omega : t.toInt ≠ 0)
  have := Int.emod_lt_of_pos a.toInt ht
  have := s.toInt_lt
  have inner : (a - a / t * t).toInt = a.toInt % t.toInt := by
    rw [toInt_sub_of_fits] <;> rw [origin] <;> omega
  have room : (s - a / t * t).toInt = s.toInt - a.toInt + a.toInt % t.toInt := by
    rw [toInt_sub_of_fits] <;> rw [origin] <;> omega
  -- At the far edge the tile ends with the grid.
  refine ⟨by omega, ?_⟩
  split <;> omega

/-- Every tile has a position, as its first one. -/
theorem origin_inside {k : Int32} (hs : 0 < s.toInt) (ht : 0 < t.toInt)
    (fits : s.toInt + t.toInt ≤ 2147483648)
    (hk : 0 ≤ k.toInt ∧ k.toInt < ((s + (t - 1)) / t).toInt) :
    (0 ≤ (k * t).toInt ∧ (k * t).toInt < s.toInt) ∧ k * t / t = k := by
  rw [toInt_across hs ht fits] at hk
  have := (Int.le_ediv_iff_mul_le ht).mp (show k.toInt ≤ (s.toInt - 1) / t.toInt by omega)
  have nonneg := Int.mul_nonneg hk.1 ht.le
  have := s.toInt_lt
  have exact : (k * t).toInt = k.toInt * t.toInt := by
    apply toInt_mul_of_fits <;> omega
  refine ⟨by omega, Int32.toInt_inj.mp ?_⟩
  rw [toInt_tile (by omega) ht, exact, Int.mul_ediv_cancel _ (by omega)]

theorem across_le (hs : 0 < s.toInt) (ht : 0 < t.toInt)
    (fits : s.toInt + t.toInt ≤ 2147483648) : ((s + (t - 1)) / t).toInt ≤ s.toInt := by
  rw [toInt_across hs ht fits]
  have := Int.ediv_le_self (a := s.toInt - 1) t.toInt (by omega)
  omega

theorem extent_le (ha : 0 ≤ a.toInt ∧ a.toInt < s.toInt) (ht : 0 < t.toInt) :
    (if s - a / t * t ≤ t then s - a / t * t else t).toInt ≤ s.toInt := by
  obtain ⟨origin, nonneg⟩ := toInt_origin ha.1 ht
  have := s.toInt_lt
  have := Int.emod_nonneg a.toInt (by omega : t.toInt ≠ 0)
  have room : (s - a / t * t).toInt = s.toInt - (a / t * t).toInt := by
    apply toInt_sub_of_fits <;> omega
  simp only [Int32.le_iff_toInt_le, room]
  split <;> omega

end Axis

/-! ## Slots -/

namespace Shaped

variable {g : Grid} {p : Vec} (shaped : g.Shaped)

include shaped

theorem tileAt_inBounds (h : p.inBounds g.size = true) :
    (g.tileAt p).inBounds g.across = true := by
  rw [Vec.inBounds_iff] at h ⊢
  rw [shaped.across]
  exact ⟨tile_lt_across h.1 shaped.side shaped.width.2,
    tile_lt_across h.2 shaped.side shaped.height.2⟩

theorem inside_tileExtent (h : p.inBounds g.size = true) :
    (p - tileOrigin g.tileSize (g.tileAt p)).inBounds
      (tileExtent g.size g.tileSize (g.tileAt p)) = true := by
  rw [Vec.inBounds_iff] at h ⊢
  exact ⟨inside_tile h.1 shaped.side, inside_tile h.2 shaped.side⟩

/-- There are at most as many tiles as cells. -/
theorem area_across_le : g.across.area ≤ g.size.area := by
  rw [shaped.across]
  apply Vec.area_le
  · exact across_le shaped.width.1 shaped.side shaped.width.2
  · exact across_le shaped.height.1 shaped.side shaped.height.2

/-- A tile has at most as many cells as the grid. -/
theorem area_tileExtent_le (h : p.inBounds g.size = true) :
    (tileExtent g.size g.tileSize (g.tileAt p)).area ≤ g.size.area := by
  rw [Vec.inBounds_iff] at h
  apply Vec.area_le
  · exact extent_le h.1 shaped.side
  · exact extent_le h.2 shaped.side

theorem exists_tileAt {tile : Vec} (inside : tile.inBounds g.across = true) :
    ∃ p, p.inBounds g.size = true ∧ g.tileAt p = tile := by
  rw [shaped.across, Vec.inBounds_iff] at inside
  obtain ⟨x, sameX⟩ := origin_inside shaped.width.1 shaped.side shaped.width.2 inside.1
  obtain ⟨y, sameY⟩ := origin_inside shaped.height.1 shaped.side shaped.height.2 inside.2
  exact ⟨tileOrigin g.tileSize tile, (Vec.inBounds_iff _ _).mpr ⟨x, y⟩, Vec.ext sameX sameY⟩

/-- The number of the cells of a tile is worked out exactly. -/
theorem toInt_areaWord_tileExtent (room : g.size.area < 2147483648) {tile : Vec}
    (inside : tile.inBounds g.across = true) :
    (tileExtent g.size g.tileSize tile).areaWord.toInt =
      (tileExtent g.size g.tileSize tile).area := by
  obtain ⟨p, inGrid, rfl⟩ := shaped.exists_tileAt inside
  have extent := (Vec.inBounds_iff _ _).mp (shaped.inside_tileExtent inGrid)
  exact Vec.toInt_areaWord (by omega) (by omega)
    ((shaped.area_tileExtent_le inGrid).trans_lt room)

end Shaped

namespace WellFormed

variable {g : Grid} (wf : g.WellFormed)

include wf

/-- In a tile the place of a position is worked out exactly. -/
theorem slot_eq {p : Vec} (h : p.inBounds g.size = true) : g.slot p =
    (g.tileNumber (g.tileAt p), (p - tileOrigin g.tileSize (g.tileAt p)).place
      (tileExtent g.size g.tileSize (g.tileAt p))) := by
  have exact := Vec.toInt_placeWord (wf.inside_tileExtent h)
    ((wf.area_tileExtent_le h).trans_lt wf.room)
  have nonneg := toNat_toUInt32 (exact.symm ▸ Int.natCast_nonneg _)
  refine Prod.ext rfl ?_
  show (Vec.placeWord _ _).toUInt32.toNat = _
  omega

/-- Different positions have different slots. -/
theorem slot_injective {p q : Vec} (hp : p.inBounds g.size = true)
    (hq : q.inBounds g.size = true) (h : g.slot p = g.slot q) : p = q := by
  rw [wf.slot_eq hp, wf.slot_eq hq] at h
  have numbers : g.tileNumber (g.tileAt p) = g.tileNumber (g.tileAt q) := congrArg Prod.fst h
  have places := congrArg Prod.snd h
  -- First the tiles are the same, and then the places in that tile.
  have tiles : g.tileAt p = g.tileAt q :=
    Vec.place_injective (wf.tileAt_inBounds hp) (wf.tileAt_inBounds hq) numbers
  simp only [tiles] at places
  have insideP := wf.inside_tileExtent hp
  rw [tiles] at insideP
  have inner := Vec.place_injective insideP (wf.inside_tileExtent hq) places
  ext1
  · simpa using congrArg Vec.x inner
  · simpa using congrArg Vec.y inner

/-- Every position has its slot. -/
theorem exists_slotCell {p : Vec} (h : p.inBounds g.size = true) :
    ∃ cell, g.slotCell? (g.slot p) = some cell := by
  obtain ⟨cells, found, size⟩ := wf.tiles _ (wf.tileAt_inBounds h)
  have bound := Vec.place_lt (wf.inside_tileExtent h)
  rw [← size] at bound
  refine ⟨cells[(p - tileOrigin g.tileSize (g.tileAt p)).place
    (tileExtent g.size g.tileSize (g.tileAt p))], ?_⟩
  simp [wf.slot_eq h, slotCell?, found, bound]

end WellFormed

theorem slotCell?_writeSlot (g : Grid) (a b : Nat × Nat) (cell : Cell) :
    (g.writeSlot a cell).slotCell? b =
      if b = a then (g.slotCell? a).map fun _ => cell else g.slotCell? b := by
  obtain ⟨a₁, a₂⟩ := a
  obtain ⟨b₁, b₂⟩ := b
  simp only [slotCell?, writeSlot, Array.getElem?_modify, Prod.mk.injEq]
  by_cases tile : a₁ = b₁
  · subst tile
    cases g.tiles[a₁]? with
    | none => simp
    | some cells =>
      by_cases place : b₂ = a₂
      · subst place
        by_cases bound : b₂ < cells.size
        · simp [bound]
        · simp [bound]
      · simp [place, Ne.symm place]
  · simp [tile, Ne.symm tile]

theorem WellFormed.writeSlot {g : Grid} (wf : g.WellFormed) (slot : Nat × Nat) (cell : Cell) :
    (g.writeSlot slot cell).WellFormed where
  side := wf.side
  width := wf.width
  height := wf.height
  across := wf.across
  room := wf.room
  tiles := by
    intro tile inside
    obtain ⟨cells, found, size⟩ := wf.tiles tile inside
    show ∃ cells, (g.tiles.modify slot.1 (·.setIfInBounds slot.2 cell))[g.tileNumber tile]? =
      some cells ∧ cells.size = (tileExtent g.size g.tileSize tile).area
    rw [Array.getElem?_modify]
    by_cases same : slot.1 = g.tileNumber tile
    · refine ⟨cells.setIfInBounds slot.2 cell, ?_, by simpa using size⟩
      rw [if_pos same]
      exact congrArg (Option.map _) found
    · refine ⟨cells, ?_, size⟩
      rw [if_neg same]
      exact found

/-! ## The cells of a grid by position -/

/-- The cell at a position. -/
def cell? (g : Grid) (p : Vec) : Option Cell :=
  if p.inBounds g.size then g.slotCell? (g.slot p) else none

theorem cell?_eq_none {g : Grid} {p : Vec} (h : p.inBounds g.size = false) :
    g.cell? p = none := by
  simp [cell?, h]

theorem WellFormed.exists_cell {g : Grid} (wf : g.WellFormed) {p : Vec}
    (h : p.inBounds g.size = true) : ∃ cell, g.cell? p = some cell := by
  obtain ⟨cell, found⟩ := wf.exists_slotCell h
  exact ⟨cell, by simp [cell?, h, found]⟩

/-- A write is seen at its own position and nowhere else. -/
theorem WellFormed.cell?_writeSlot {g : Grid} (wf : g.WellFormed) {p : Vec}
    (h : p.inBounds g.size = true) (cell : Cell) (q : Vec) :
    (g.writeSlot (g.slot p) cell).cell? q = if q = p then some cell else g.cell? q := by
  have sizes : (g.writeSlot (g.slot p) cell).size = g.size := rfl
  have slots : (g.writeSlot (g.slot p) cell).slot q = g.slot q := rfl
  simp only [Grid.cell?, sizes, slots, slotCell?_writeSlot]
  by_cases hq : q.inBounds g.size = true
  · by_cases same : q = p
    · subst same
      obtain ⟨old, found⟩ := wf.exists_slotCell hq
      simp [hq, found]
    · have : g.slot q ≠ g.slot p := fun slots => same (wf.slot_injective hq h slots)
      simp [hq, this, same]
  · have : q ≠ p := fun same => hq (same ▸ h)
    simp [hq, this]

/-! ## New grids -/

theorem max_one_eq {n : UInt32} (h : 0 < n.toNat) : max n 1 = n := by
  show (if n ≤ 1 then 1 else n) = n
  split
  · rename_i small
    rw [UInt32.le_iff_toNat_le] at small
    exact UInt32.toNat_inj.mp (Nat.le_antisymm h small)
  · rfl

section Filled

variable {width height tileSize : UInt32} (cell : Cell) (ht : 0 < tileSize.toNat)
  (hw : 0 < width.toNat ∧ width.toNat + tileSize.toNat ≤ 2147483648)
  (hh : 0 < height.toNat ∧ height.toNat + tileSize.toNat ≤ 2147483648)

include ht hw hh

/-- The sides of a grid that fit are the words that were asked for. -/
theorem filled_sides : (filled width height tileSize cell).size.x.toInt = width.toNat ∧
    (filled width height tileSize cell).size.y.toInt = height.toNat ∧
    (filled width height tileSize cell).tileSize.toInt = tileSize.toNat := by
  refine ⟨toInt_toInt32 (by omega), toInt_toInt32 (by omega), ?_⟩
  show (max tileSize 1).toInt32.toInt = _
  rw [max_one_eq ht]
  exact toInt_toInt32 (by omega)

/-- The tiles of a grid whose sides fit cover it. -/
theorem shaped_filled : (filled width height tileSize cell).Shaped := by
  obtain ⟨x, y, side⟩ := filled_sides cell ht hw hh
  exact ⟨by omega, by omega, by omega, rfl⟩

/-- A grid whose sides and whose area fit is well formed, and has the same cell
everywhere. -/
theorem filled_spec (room : width.toNat * height.toNat < 2147483648) :
    (filled width height tileSize cell).WellFormed ∧
      ∀ p, p.inBounds (filled width height tileSize cell).size = true →
        (filled width height tileSize cell).cell? p = some cell := by
  obtain ⟨x, y, -⟩ := filled_sides cell ht hw hh
  have shaped := shaped_filled cell ht hw hh
  have area : (filled width height tileSize cell).size.area < 2147483648 := by
    simpa only [Vec.area, Vec.columns, Vec.rows, Int32.toNatClampNeg, x, y, Int.toNat_natCast]
      using room
  -- Tiles are kept in the order of their numbers.
  have tiles : ∀ tile, tile.inBounds (filled width height tileSize cell).across = true →
      (filled width height tileSize cell).tiles[
        (filled width height tileSize cell).tileNumber tile]? =
          some (Array.replicate (tileExtent (filled width height tileSize cell).size
            (filled width height tileSize cell).tileSize tile).area cell) := by
    intro tile inside
    have count := congrArg Int.toNat (shaped.toInt_areaWord_tileExtent area inside)
    rw [Int.toNat_natCast] at count
    rw [← count]
    simp only [filled, tileNumber, List.getElem?_toArray, List.getElem?_map] at inside ⊢
    rw [Vec.getElem?_positions_place inside]
    rfl
  have wf : (filled width height tileSize cell).WellFormed :=
    ⟨shaped, area, fun tile inside => ⟨_, tiles tile inside, Array.size_replicate⟩⟩
  refine ⟨wf, ?_⟩
  intro p inside
  have bound := Vec.place_lt (wf.inside_tileExtent inside)
  simp only [Grid.cell?, inside, if_true, wf.slot_eq inside, slotCell?]
  rw [tiles _ (wf.tileAt_inBounds inside)]
  simp [bound]

end Filled

end Grid

end FallingSand
