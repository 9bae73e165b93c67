import FallingSand.Proofs.Board.Locks
import Mathlib.Data.List.Induction

/-!
# Tiled grids are flat arrays

Whoever works on a grid of tiles locks some of them and reads and writes the cells of the
region that he gets. All of that can be explained without tiles: there is one cell for each
position of the grid, a region lets through to the positions within its bounds, and a read
finds what was written last. So it does not matter through which regions the writes and the
reads go.
-/

namespace FallingSand

namespace Region

/-- A region locks tiles of its grid, in ascending order. It has a cell for the positions of
these tiles, which are those within its bounds, and finds the tile of such a position among
the locked ones. -/
structure Faithful (r : Region) : Prop where
  contains : ∀ p, r.contains p = true ↔ (r.cell? p).isSome = true
  exist : ∀ n ∈ r.grid.lockedTiles r.lock, n < r.grid.tiles.size
  ascending : (r.grid.lockedTiles r.lock).Pairwise (· < ·)
  cells : ∀ p, (r.cell? p).isSome = true ↔ p.inBounds r.grid.size = true ∧
    r.grid.tileNumber (r.grid.tileAt p) ∈ r.grid.lockedTiles r.lock
  bounds : ∀ p, (r.cell? p).isSome = true ↔ p ∈ Vec.rectangle r.bounds.1 r.bounds.2
  found : ∀ p, (r.cell? p).isSome = true → ∃ n : Nat,
    ((r.grid.tileAt p - r.lock.low).placeWord r.lock.span).toInt = n ∧
      (r.grid.lockedTiles r.lock)[n]? = some (r.grid.slot p).1

end Region

namespace Grid

/-! ## Writes through regions -/

/-- The region that a way of locking gives. -/
def region (g : Grid) (l : Locking) : Region := ⟨g, l.lock g⟩

/-- A write of a cell through a region. -/
structure Writing where
  locking : Locking
  position : Vec
  cell : Cell

/-- The grid after a write. Nothing is written where the region does not have the position. -/
def put (g : Grid) (w : Writing) : Grid :=
  ((g.region w.locking).write w.position w.cell).grid

/-- The grid after some writes, one after the other. -/
def after (g : Grid) (history : List Writing) : Grid := history.foldl put g

variable {g h : Grid} {w : Writing} {l : Locking} {p q : Vec}

theorem Alike.contains (alike : Alike g h) (l : Locking) (p : Vec) :
    (h.region l).contains p = (g.region l).contains p := by
  show (p.inBounds h.size && (l.lock h).has (h.tileAt p)) =
    (p.inBounds g.size && (l.lock g).has (g.tileAt p))
  rw [alike.lock l, alike.size, tileAt, alike.tileSize, tileAt]

theorem put_of_contains (inside : (g.region w.locking).contains w.position = true) :
    g.put w = g.writeSlot (g.slot w.position) w.cell := by
  rw [put, Region.write_of_contains inside]
  rfl

theorem put_of_not_contains (outside : ¬(g.region w.locking).contains w.position = true) :
    g.put w = g := by
  rw [put, Region.write, if_neg outside]
  rfl

theorem alike_put (g : Grid) (w : Writing) : Alike g (g.put w) := by
  by_cases inside : (g.region w.locking).contains w.position = true
  · rw [put_of_contains inside]
    exact ⟨rfl, rfl, rfl⟩
  · rw [put_of_not_contains inside]
    exact ⟨rfl, rfl, rfl⟩

theorem WellFormed.put (wf : g.WellFormed) (w : Writing) : (g.put w).WellFormed := by
  by_cases inside : (g.region w.locking).contains w.position = true
  · rw [put_of_contains inside]
    exact wf.writeSlot _ _
  · rw [put_of_not_contains inside]
    exact wf

/-- A write changes the cell at its position, if its region has that, and no other cell. -/
theorem WellFormed.cell?_put (wf : g.WellFormed) (w : Writing) (q : Vec) :
    (g.put w).cell? q =
      if (g.region w.locking).contains w.position = true ∧ q = w.position then some w.cell
      else g.cell? q := by
  by_cases inside : (g.region w.locking).contains w.position = true
  · have here : w.position.inBounds g.size = true :=
      Region.inBounds_of_contains (r := g.region w.locking) inside
    rw [put_of_contains inside, wf.cell?_writeSlot here]
    simp only [inside, true_and]
  · have spared : ¬((g.region w.locking).contains w.position = true ∧ q = w.position) :=
      fun h => inside h.1
    rw [put_of_not_contains inside, if_neg spared]

/-! ## Histories -/

/-- The cell that was written last at a position, if there is one. -/
def latest (g : Grid) (history : List Writing) (q : Vec) : Option Cell :=
  ((history.filter fun w => w.position == q && (g.region w.locking).contains q).getLast?).map
    (·.cell)

theorem after_concat (g : Grid) (history : List Writing) (w : Writing) :
    g.after (history ++ [w]) = (g.after history).put w := by
  rw [after, List.foldl_append]
  rfl

theorem alike_after (g : Grid) (history : List Writing) : Alike g (g.after history) := by
  induction history using List.reverseRecOn with
  | nil => exact ⟨rfl, rfl, rfl⟩
  | append_singleton history w ih =>
    rw [after_concat]
    exact ih.trans (alike_put _ w)

theorem WellFormed.after (wf : g.WellFormed) (history : List Writing) :
    (g.after history).WellFormed := by
  induction history using List.reverseRecOn with
  | nil => exact wf
  | append_singleton history w ih =>
    rw [after_concat]
    exact ih.put w

/-- By induction on the history, whose last write comes to light first. -/
theorem WellFormed.cell?_after (wf : g.WellFormed) (history : List Writing) (q : Vec) :
    (g.after history).cell? q = (g.latest history q).or (g.cell? q) := by
  induction history using List.reverseRecOn with
  | nil => rfl
  | append_singleton history w ih =>
    have same := (alike_after g history).contains w.locking w.position
    rw [after_concat, (wf.after history).cell?_put, same, ih, latest, latest, List.filter_append]
    by_cases here : q = w.position
    · subst here
      by_cases inside : (g.region w.locking).contains w.position = true
      · simp [inside]
      · simp [inside]
    · simp [here, Ne.symm here]

/-! ## Slots -/

/-- The cells of a grid are kept in slots of their own, which are found on words. -/
structure Slotted (g : Grid) : Prop where
  exist : ∀ p, p.inBounds g.size = true → ∃ cell, g.slotCell? (g.slot p) = some cell
  injective : ∀ p q, p.inBounds g.size = true → q.inBounds g.size = true →
    g.slot p = g.slot q → p = q
  tile : ∀ p, p.inBounds g.size = true →
    ((g.tileAt p).placeWord g.across).toInt = (g.slot p).1
  place : ∀ p, p.inBounds g.size = true →
    ((p - tileOrigin g.tileSize (g.tileAt p)).placeWord
      (tileExtent g.size g.tileSize (g.tileAt p))).toInt = (g.slot p).2

namespace WellFormed

variable (wf : g.WellFormed)

include wf

theorem slotted : g.Slotted where
  exist _ inside := wf.exists_slotCell inside
  injective _ _ hp hq same := wf.slot_injective hp hq same
  tile _ inside :=
    Vec.toInt_placeWord (wf.tileAt_inBounds inside) (wf.area_across_le.trans_lt wf.room)
  place _ inside := by
    rw [wf.slot_eq inside]
    exact Vec.toInt_placeWord (wf.inside_tileExtent inside)
      ((wf.area_tileExtent_le inside).trans_lt wf.room)

end WellFormed

/-! ## Regions of a grid -/

/-- The numbers of locked tiles are those of the tiles that a lock has. -/
theorem mem_lockedTiles_iff {lock : Lock} (within : lock.Within g.across) {tile : Vec}
    (inside : tile.inBounds g.across = true) :
    g.tileNumber tile ∈ g.lockedTiles lock ↔ lock.has tile = true := by
  rw [lockedTiles, List.mem_map]
  constructor
  · rintro ⟨other, member, same⟩
    rw [← Vec.place_injective (within.inBounds_of_mem member) inside same]
    exact Lock.mem_tiles.mp member
  · exact fun locked => ⟨tile, Lock.mem_tiles.mpr locked, rfl⟩

namespace WellFormed

variable (wf : g.WellFormed)

include wf

/-- The locked tiles are those that are asked for. -/
theorem mem_lockedTiles_lock_iff {l : Locking} (ordered : l.Ordered) {n : Nat} :
    n ∈ g.lockedTiles (l.lock g) ↔
      ∃ tile, tile.inBounds g.across = true ∧ l.Asks g tile ∧ n = g.tileNumber tile := by
  constructor
  · intro member
    obtain ⟨tile, locked, rfl⟩ := List.mem_map.mp member
    have inside := (wf.within_lock l).inBounds_of_mem locked
    exact ⟨tile, inside, (wf.has_lock_iff ordered inside).mp (Lock.mem_tiles.mp locked), rfl⟩
  · rintro ⟨tile, inside, asked, rfl⟩
    exact (mem_lockedTiles_iff (wf.within_lock l) inside).mpr
      ((wf.has_lock_iff ordered inside).mpr asked)

theorem faithful_region (l : Locking) :
    (g.region l).Faithful where
  contains _ := (Region.isSome_cell?_iff wf).symm
  exist := by
    intro n member
    obtain ⟨tile, locked, rfl⟩ := List.mem_map.mp member
    obtain ⟨cells, found, -⟩ := wf.tiles tile ((wf.within_lock l).inBounds_of_mem locked)
    exact (Array.getElem?_eq_some_iff.mp found).1
  ascending := (wf.within_lock l).ascending
  cells := by
    intro p
    rw [Region.isSome_cell?_iff wf, Region.contains, Bool.and_eq_true]
    refine and_congr_right fun inside => ?_
    exact (mem_lockedTiles_iff (wf.within_lock l) (wf.tileAt_inBounds inside)).symm
  bounds := by
    intro p
    rw [Region.isSome_cell?_iff wf]
    exact Region.contains_iff_mem_bounds wf.toShaped (wf.within_lock l)
  found := by
    intro p present
    have covered := (Region.isSome_cell?_iff wf).mp present
    have columns := (wf.within_lock l).columns
    have rows := (wf.within_lock l).rows
    have fewer : (l.lock g).span.area ≤ g.across.area := Vec.area_le (by omega) (by omega)
    have small : (l.lock g).span.area < 2147483648 :=
      fewer.trans_lt (wf.area_across_le.trans_lt wf.room)
    have locked : (l.lock g).has (g.tileAt p) = true := by
      rw [Region.contains, Bool.and_eq_true] at covered
      exact covered.2
    exact ⟨_, Vec.toInt_placeWord locked small, Region.getElem?_lockedTiles covered⟩

end WellFormed

/-! ## Flat arrays -/

theorem cell?_region (inside : (g.region l).contains q = true) :
    (g.region l).cell? q = g.cell? q :=
  Region.cell?_of_contains inside

/-- A read through one region after a write through another one. -/
theorem WellFormed.read_after_write (wf : g.WellFormed)
    (written : (g.region w.locking).contains w.position = true)
    (read : (g.region l).contains q = true) :
    ((g.put w).region l).cell? q =
      if q = w.position then some w.cell else (g.region l).cell? q := by
  have still : ((g.put w).region l).contains q = true := by
    rw [(alike_put g w).contains]
    exact read
  rw [cell?_region still, cell?_region read, wf.cell?_put]
  simp only [written, true_and]

/-- A grid of tiles is a flat array, whatever its sides and the width of its tiles are and
whatever has been written to it. A region has the tiles that are asked for, and through it is
found at a position what was written there last, through this or any other region. -/
theorem tiled_grid_flat {width height tileSize : UInt32} (fill : Cell)
    (tile : 0 < tileSize.toNat)
    (hw : 0 < width.toNat ∧ width.toNat + tileSize.toNat < 2147483648)
    (hh : 0 < height.toNat ∧ height.toNat + tileSize.toNat < 2147483648)
    (room : width.toNat * height.toNat < 2147483648) (history : List Writing) :
    let start := filled width height tileSize fill
    let g := start.after history
    (g.size.x.toInt = width.toNat ∧ g.size.y.toInt = height.toNat) ∧ g.Slotted ∧
      (∀ l, (g.region l).Faithful) ∧
      (∀ l : Locking, l.Ordered → ∀ n, n ∈ g.lockedTiles (l.lock g) ↔
        ∃ tile, tile.inBounds g.across = true ∧ l.Asks g tile ∧ n = g.tileNumber tile) ∧
      (∀ l q, (g.region l).contains q = true →
        (g.region l).cell? q = some ((start.latest history q).getD fill)) ∧
      ∀ w l q, (g.region w.locking).contains w.position = true →
        (g.region l).contains q = true →
        ((g.put w).region l).cell? q =
          if q = w.position then some w.cell else (g.region l).cell? q := by
  intro start g
  obtain ⟨wfStart, everywhere⟩ :=
    filled_spec fill tile ⟨hw.1, hw.2.le⟩ ⟨hh.1, hh.2.le⟩ room
  obtain ⟨x, y, -⟩ := filled_sides fill tile ⟨hw.1, hw.2.le⟩ ⟨hh.1, hh.2.le⟩
  have wf : g.WellFormed := wfStart.after history
  have alike : Alike start g := alike_after start history
  have sides : g.size.x.toInt = width.toNat ∧ g.size.y.toInt = height.toNat := by
    rw [alike.size]
    exact ⟨x, y⟩
  refine ⟨sides, wf.slotted, wf.faithful_region,
    fun l ordered n => wf.mem_lockedTiles_lock_iff ordered, ?_,
    fun w l q => wf.read_after_write⟩
  intro l q inside
  have within : q.inBounds start.size = true := by
    rw [← alike.size]
    exact Region.inBounds_of_contains (r := g.region l) inside
  rw [cell?_region inside, wfStart.cell?_after, everywhere q within]
  cases start.latest history q with
  | none => rfl
  | some cell => rfl

/-- A grid of three columns and four rows whose tiles are two cells wide, with a write at its
right edge. -/
theorem tiled_grid_flat_narrow :
    let start := filled 3 4 2 {}
    let g := start.after [⟨.block ⟨2, 1⟩, ⟨2, 0⟩, ⟨1, {}⟩⟩]
    (g.region .whole).contains ⟨2, 0⟩ = true ∧
      (g.region .whole).cell? ⟨2, 0⟩ = some ⟨1, {}⟩ ∧
      g.lockedTiles ((Locking.rectangle ⟨1, 1⟩ ⟨1, 2⟩).lock g) = [0, 2] := by
  have covered : ((filled 3 4 2 {}).region .whole).contains ⟨2, 0⟩ = true := by decide
  obtain ⟨-, -, -, -, reads, -⟩ := @tiled_grid_flat 3 4 2 {}
    (by decide) (by decide) (by decide) (by decide) [⟨.block ⟨2, 1⟩, ⟨2, 0⟩, ⟨1, {}⟩⟩]
  have inside := (alike_after (filled 3 4 2 {}) [⟨.block ⟨2, 1⟩, ⟨2, 0⟩, ⟨1, {}⟩⟩]).contains
    .whole ⟨2, 0⟩
  refine ⟨inside.trans covered, (reads .whole _ (inside.trans covered)).trans (by decide), ?_⟩
  decide

end Grid

end FallingSand
