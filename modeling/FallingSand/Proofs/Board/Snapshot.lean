import FallingSand.Board.Snapshot
import FallingSand.Proofs.Geometry.Bounds

/-!
# The laws of snapshots

A snapshot that has a cell for each position of its size is an honest partial
map from positions to cells: a write is seen at its own position and nowhere
else, and the map determines the snapshot. A snapshot that is taken of a board
holds what the board holds, whatever it held before.
-/

namespace FallingSand.Snapshot

/-- Each position of the size has exactly one cell. -/
def Full (s : Snapshot) : Prop := s.cells.size = s.size.area

theorem full_empty : Full {} := rfl

@[simp] theorem size_filled (size : Vec) (cell : Cell) : (filled size cell).size = size := rfl

theorem full_filled (size : Vec) (cell : Cell) : (filled size cell).Full := by
  simp [Full, filled]

@[simp] theorem size_write (s : Snapshot) (p : Vec) (cell : Cell) :
    (s.write p cell).size = s.size := by
  unfold write
  split <;> rfl

theorem full_write {s : Snapshot} (full : s.Full) (p : Vec) (cell : Cell) :
    (s.write p cell).Full := by
  unfold write Full
  split
  · exact Array.size_setIfInBounds.trans full
  · exact full

theorem cell?_eq_none {s : Snapshot} {p : Vec} (h : p.inBounds s.size = false) :
    s.cell? p = none := by
  simp [cell?, h]

theorem inBounds_of_cell? {s : Snapshot} {p : Vec} {cell : Cell} (h : s.cell? p = some cell) :
    p.inBounds s.size = true := by
  by_contra outside
  rw [cell?_eq_none (Bool.eq_false_iff.mpr outside)] at h
  cases h

theorem Full.exists_cell {s : Snapshot} (full : s.Full) {p : Vec}
    (h : p.inBounds s.size = true) : ∃ cell, s.cell? p = some cell := by
  have : p.place s.size < s.cells.size := full ▸ Vec.place_lt h
  exact ⟨s.cells[p.place s.size], by simp [cell?, h, this]⟩

theorem cell?_filled {size : Vec} (cell : Cell) {p : Vec} (h : p.inBounds size = true) :
    (filled size cell).cell? p = some cell := by
  have bound := Vec.place_lt h
  simp only [cell?, filled, h, if_true, Array.getElem?_replicate, bound]

theorem eq_of_cell?_filled {size p : Vec} {cell other : Cell}
    (h : (filled size cell).cell? p = some other) : other = cell := by
  have inside := inBounds_of_cell? h
  rw [size_filled] at inside
  rw [cell?_filled cell inside] at h
  exact (Option.some.inj h).symm

/-- A write is seen at its own position and nowhere else. -/
theorem cell?_write {s : Snapshot} (full : s.Full) {p : Vec}
    (h : p.inBounds s.size = true) (cell : Cell) (q : Vec) :
    (s.write p cell).cell? q = if q = p then some cell else s.cell? q := by
  have hp : p.place s.size < s.cells.size := full ▸ Vec.place_lt h
  by_cases hq : q.inBounds s.size = true
  · simp only [cell?, write, h, hq, if_true, Array.getElem?_setIfInBounds, hp]
    by_cases same : q = p
    · simp [same]
    · have : p.place s.size ≠ q.place s.size :=
        fun places => same (Vec.place_injective h hq places).symm
      simp [same, this]
  · have different : q ≠ p := fun same => hq (same ▸ h)
    simp [cell?, hq, different]

/-- Where the same cell is everywhere, writing it changes nothing. -/
theorem write_filled {size p : Vec} {cell : Cell} (h : p.inBounds size = true) :
    (filled size cell).write p cell = filled size cell := by
  have bound := Vec.place_lt h
  simp only [write, filled, h, if_true]
  rw [Array.setIfInBounds_def]
  simp [bound]

/-- Of two writes to one position only the second counts. -/
theorem write_write (s : Snapshot) (p : Vec) (first second : Cell) :
    (s.write p first).write p second = s.write p second := by
  unfold write
  by_cases h : p.inBounds s.size = true <;> simp [h]

/-- Writes to different positions can change places. -/
theorem write_comm (s : Snapshot) {p q : Vec} (different : p ≠ q) (first second : Cell) :
    (s.write p first).write q second = (s.write q second).write p first := by
  unfold write
  by_cases hp : p.inBounds s.size = true <;> by_cases hq : q.inBounds s.size = true
  · have places : p.place s.size ≠ q.place s.size :=
      fun same => different (Vec.place_injective hp hq same)
    simp only [hp, hq, if_true]
    rw [Array.setIfInBounds_comm first second places]
  all_goals simp [hp, hq]

/-- The cells, row by row, are those at the positions. -/
theorem Full.map_cell?_positions {s : Snapshot} (full : s.Full) :
    s.size.positions.map s.cell? = s.cells.toList.map some := by
  have eq : s.size.positions.map s.cell? =
      (s.size.positions.map (·.place s.size)).map (s.cells[·]?) := by
    rw [List.map_map]
    refine List.map_congr_left ?_
    intro p hp
    simp [cell?, Vec.mem_positions.mp hp]
  rw [eq, Vec.map_place_positions, ← full]
  refine List.ext_getElem (by simp) ?_
  intro n hn _
  simp only [List.length_map, List.length_range] at hn
  simp [hn]

/-- The cells at the positions determine a snapshot. -/
theorem Full.ext {s t : Snapshot} (hs : s.Full) (ht : t.Full) (size : s.size = t.size)
    (cells : ∀ p, s.cell? p = t.cell? p) : s = t := by
  -- The cells in place order are those at the positions, row by row.
  have lists : s.cells.toList.map some = t.cells.toList.map some := by
    rw [← hs.map_cell?_positions, ← ht.map_cell?_positions, size]
    exact List.map_congr_left fun p _ => cells p
  have := List.map_injective_iff.mpr (Option.some_injective _) lists
  cases s
  cases t
  simp_all

/-! ## Snapshots of boards -/

variable {β : Type} [Board β]

/-- The snapshot with the cell of a board at a position, if the board has it. -/
def copyCell (board : β) (s : Snapshot) (p : Vec) : Snapshot :=
  match Board.cell? board p with
  | some cell => s.write p cell
  | none => s

/-- What is left after the cells of a board at some positions are taken over. -/
theorem foldl_copyCell (board : β) (positions : List Vec) (s : Snapshot) (full : s.Full)
    (inside : ∀ p ∈ positions, p.inBounds s.size = true) :
    (positions.foldl (copyCell board) s).Full ∧
    (positions.foldl (copyCell board) s).size = s.size ∧
    ∀ q, (positions.foldl (copyCell board) s).cell? q =
      if q ∈ positions then (Board.cell? board q).or (s.cell? q) else s.cell? q := by
  induction positions generalizing s with
  | nil => exact ⟨full, rfl, fun q => by simp⟩
  | cons p rest ih =>
    simp only [List.foldl_cons]
    have hp := inside p List.mem_cons_self
    have hrest : ∀ q ∈ rest, q.inBounds s.size = true :=
      fun q hq => inside q (List.mem_cons_of_mem _ hq)
    cases found : Board.cell? board p with
    | none =>
      simp only [copyCell, found]
      obtain ⟨full', size', cells'⟩ := ih s full hrest
      refine ⟨full', size', ?_⟩
      intro q
      rw [cells' q]
      by_cases same : q = p
      · simp [same, found]
      · simp [same]
    | some cell =>
      simp only [copyCell, found]
      obtain ⟨full', size', cells'⟩ := ih (s.write p cell) (full_write full p cell)
        (by simpa using hrest)
      refine ⟨full', by simpa using size', ?_⟩
      intro q
      rw [cells' q, cell?_write full hp]
      by_cases same : q = p
      · simp [same, found]
      · simp [same]

/-- What a copy starts from: the snapshot itself, or a blank one where the sizes differ. -/
def resized (s : Snapshot) (size : Vec) : Snapshot := if s.size = size then s else filled size {}

theorem copyFrom_eq (s : Snapshot) (board : β) : s.copyFrom board =
    (Board.size board).positions.foldl (copyCell board) (s.resized (Board.size board)) := rfl

theorem size_resized (s : Snapshot) (size : Vec) : (s.resized size).size = size := by
  unfold resized
  split
  · assumption
  · rfl

theorem full_resized {s : Snapshot} {size : Vec} (full : s.size = size → s.Full) :
    (s.resized size).Full := by
  unfold resized
  split
  · rename_i same
    exact full same
  · exact full_filled _ _

theorem size_copyFrom (s : Snapshot) (board : β) : (s.copyFrom board).size = Board.size board := by
  have kept (positions : List Vec) (s : Snapshot) :
      (positions.foldl (copyCell board) s).size = s.size := by
    induction positions generalizing s with
    | nil => rfl
    | cons p rest ih =>
      rw [List.foldl_cons, ih]
      unfold copyCell
      split <;> simp
  rw [copyFrom_eq, kept, size_resized]

theorem full_copyFrom {s : Snapshot} (board : β) (full : s.size = Board.size board → s.Full) :
    (s.copyFrom board).Full := by
  rw [copyFrom_eq]
  refine (foldl_copyCell board _ _ (full_resized full) fun p member => ?_).1
  rw [size_resized]
  exact Vec.mem_positions.mp member

/-- A snapshot of a board that has all its cells holds these cells, whatever it held before.
Only where it keeps its size need it have a cell for each position. -/
theorem copyFrom_spec (s : Snapshot) (board : β) (full : s.size = Board.size board → s.Full)
    (all : ∀ p, p.inBounds (Board.size board) = true → (Board.cell? board p).isSome)
    (none_outside : ∀ p, p.inBounds (Board.size board) = false → Board.cell? board p = none) :
    (s.copyFrom board).Full ∧ (s.copyFrom board).size = Board.size board ∧
      ∀ p, (s.copyFrom board).cell? p = Board.cell? board p := by
  refine ⟨full_copyFrom board full, size_copyFrom s board, fun p => ?_⟩
  have size := size_resized s (Board.size board)
  obtain ⟨-, -, cells⟩ := foldl_copyCell board (Board.size board).positions _ (full_resized full)
    fun p member => size.symm ▸ Vec.mem_positions.mp member
  rw [copyFrom_eq, cells p]
  by_cases inside : p.inBounds (Board.size board) = true
  · obtain ⟨cell, found⟩ := Option.isSome_iff_exists.mp (all p inside)
    simp [Vec.mem_positions, inside, found]
  · have outside : p.inBounds (Board.size board) = false := by simpa using inside
    rw [none_outside p outside, cell?_eq_none (by rw [size]; exact outside)]
    simp

/-- The snapshots that there are: blank ones of any size, and what writing and copying make of
others. How many cells a blank one has is left open where the number is no word. -/
inductive Made : Snapshot → Prop
  | blank (size : Vec) (count : Nat) (counted : size.area < 2 ^ 31 → count = size.area) :
      Made ⟨size, Array.replicate count {}⟩
  | write {s : Snapshot} (made : Made s) (p : Vec) (cell : Cell) : Made (s.write p cell)
  | copyFrom {s : Snapshot} {γ : Type} [Board γ] (made : Made s) (board : γ) :
      Made (s.copyFrom board)

/-- A snapshot whose number of positions is a word has a cell for each of them. -/
theorem Made.full {s : Snapshot} (made : Made s) (fits : s.size.area < 2 ^ 31) : s.Full := by
  induction made with
  | blank size count counted => simp [Full, counted fits]
  | write made p cell ih =>
    rw [size_write] at fits
    exact full_write (ih fits) p cell
  | copyFrom made board ih =>
    rw [size_copyFrom] at fits
    exact full_copyFrom board fun same => ih (same ▸ fits)

/-! ## A snapshot -/

/-- Two grains, one of them with room below. -/
def pile : Snapshot := ⟨⟨3, 2⟩, #[⟨1, {}⟩, {}, {}, {}, ⟨1, {}⟩, {}]⟩

end FallingSand.Snapshot
