import FallingSand.Proofs.Board.Snapshot

/-!
# Listing and counting the cells of a snapshot

A snapshot that has a cell for each position of its size lists each position once, row by row,
with its cell (`Full.map_fst_entries`, `Full.getElem?_entries_place`). It counts the cells of each
type in an array that ends with the largest type that there is (`tallied_population`).
-/

namespace FallingSand

namespace Vec

theorem ofPlace_place {p size : Vec} (inside : p.inBounds size = true) :
    ofPlace size (p.place size) = p := by
  obtain ⟨same, column, row⟩ := eq_ofNat_of_inBounds inside
  have place : p.place size = p.y.toNatClampNeg * size.columns + p.x.toNatClampNeg := rfl
  have left : p.place size % size.columns = p.x.toNatClampNeg := by
    rw [place, Nat.mul_comm, Nat.mul_add_mod, Nat.mod_eq_of_lt column]
  have above : p.place size / size.columns = p.y.toNatClampNeg := by
    rw [place, Nat.mul_comm, Nat.mul_add_div (Nat.zero_lt_of_lt column), Nat.div_eq_of_lt column,
      Nat.add_zero]
  rw [ofPlace, left, above, ← same]

/-- The positions of the places are the positions inside a size, row by row. -/
theorem map_ofPlace_range (size : Vec) :
    (List.range size.area).map (ofPlace size) = size.positions := by
  rw [← map_place_positions, List.map_map]
  refine (List.map_congr_left fun p member => ?_).trans (List.map_id _)
  exact ofPlace_place (mem_positions.mp member)

end Vec

namespace Snapshot

variable {s : Snapshot}

/-! ## Listing -/

theorem getElem?_entries (s : Snapshot) (n : Nat) :
    s.entries[n]? = s.cells[n]?.map fun cell => (Vec.ofPlace s.size n, cell) := by
  simp [entries, Function.comp_def]

namespace Full

/-- Each position is listed once, row by row. -/
theorem map_fst_entries (full : s.Full) : s.entries.map Prod.fst = s.size.positions := by
  have places : s.entries.map Prod.fst = (List.range s.cells.size).map (Vec.ofPlace s.size) := by
    refine List.ext_getElem? fun n => ?_
    rw [List.getElem?_map, getElem?_entries, List.getElem?_map]
    by_cases inside : n < s.cells.size <;> simp [inside]
  rw [places, full, Vec.map_ofPlace_range]

/-- At the place of a position its cell is listed. -/
theorem getElem?_entries_place {p : Vec} (inside : p.inBounds s.size = true) :
    s.entries[p.place s.size]? = (s.cell? p).map (p, ·) := by
  rw [getElem?_entries, Vec.ofPlace_place inside, cell?, if_pos inside]

end Full

/-! ## Counting -/

theorem sum_modify_succ {counts : List Nat} {n : Nat} (inside : n < counts.length) :
    (counts.modify n (· + 1)).sum = counts.sum + 1 := by
  induction counts generalizing n with
  | nil => cases inside
  | cons count rest ih =>
    cases n with
    | zero =>
      rw [List.modify_zero_cons, List.sum_cons, List.sum_cons]
      omega
    | succ n =>
      rw [List.modify_succ_cons, List.sum_cons, List.sum_cons, ih (Nat.lt_of_succ_lt_succ inside)]
      omega

section Tally

variable (counts : Array Nat) (atom : AtomId)

theorem size_tally : (tally counts atom).size = max counts.size (atom.toNat + 1) := by
  unfold tally
  dsimp only
  split
  · rw [Array.size_modify]
    omega
  · simp only [Array.size_push, Array.size_append, Array.size_replicate]
    omega

theorem getElem?_tally (n : Nat) : (tally counts atom)[n]?.getD 0 =
    counts[n]?.getD 0 + if atom.toNat = n then 1 else 0 := by
  unfold tally
  dsimp only
  split
  · rename_i known
    rw [Array.getElem?_modify]
    split
    · rename_i same
      subst same
      simp [known]
    · rfl
  · rename_i new
    rw [Array.getElem?_push, Array.getElem?_append, Array.getElem?_replicate]
    grind

theorem sum_tally : (tally counts atom).toList.sum = counts.toList.sum + 1 := by
  unfold tally
  dsimp only
  split
  · rename_i known
    rw [Array.toList_modify, sum_modify_succ (by simpa using known)]
  · simp

end Tally

/-- Whether an array holds the numbers of the types in a list, up to the largest of them. -/
structure Tallied (atoms : List AtomId) (counts : Array Nat) : Prop where
  counted : ∀ n, counts[n]?.getD 0 = atoms.countP (·.toNat == n)
  below : ∀ atom ∈ atoms, atom.toNat < counts.size
  largest : counts.size = 0 ∨ ∃ atom ∈ atoms, atom.toNat + 1 = counts.size
  summed : counts.toList.sum = atoms.length

theorem tallied_nil : Tallied [] #[] := ⟨fun n => by simp, nofun, .inl rfl, rfl⟩

/-- One cell more. -/
theorem Tallied.tally {atoms : List AtomId} {counts : Array Nat} (tallied : Tallied atoms counts)
    (atom : AtomId) : Tallied (atoms ++ [atom]) (tally counts atom) := by
  have size := size_tally counts atom
  refine ⟨fun n => ?_, fun other member => ?_, .inr ?_, ?_⟩
  · rw [getElem?_tally, tallied.counted, List.countP_append, List.countP_singleton]
    simp only [beq_iff_eq]
  · rcases List.mem_append.mp member with known | new
    · have := tallied.below other known
      omega
    · rw [List.mem_singleton.mp new]
      omega
  · -- The largest type is the new one, or the largest so far.
    by_cases farther : counts.size ≤ atom.toNat
    · exact ⟨atom, by simp, by omega⟩
    · obtain ⟨other, member, same⟩ := tallied.largest.resolve_left (by omega)
      exact ⟨other, by simp [member], by omega⟩
  · rw [sum_tally, tallied.summed, List.length_append]
    rfl

theorem Tallied.foldl {atoms : List AtomId} {counts : Array Nat} (tallied : Tallied atoms counts)
    (more : List AtomId) : Tallied (atoms ++ more) (more.foldl Snapshot.tally counts) := by
  induction more generalizing atoms counts with
  | nil => rwa [List.append_nil]
  | cons atom rest ih =>
    have := ih (tallied.tally atom)
    rwa [List.append_assoc] at this

theorem tallied_population (s : Snapshot) :
    Tallied (s.cells.toList.map (·.atom)) s.population := by
  have folded : s.population = (s.cells.toList.map (·.atom)).foldl Snapshot.tally #[] := by
    rw [List.foldl_map, Array.foldl_toList]
    rfl
  have := tallied_nil.foldl (s.cells.toList.map (·.atom))
  rwa [← folded] at this

/-- The cells in a list are the cells at the positions. -/
theorem Full.countP_cells (full : s.Full) (test : Cell → Bool) :
    s.cells.toList.countP test = s.size.positions.countP fun p => (s.cell? p).any test := by
  have listed := congrArg (List.countP fun found : Option Cell => found.any test)
    full.map_cell?_positions
  rw [List.countP_map, List.countP_map] at listed
  exact listed.symm

theorem Full.mem_cells_iff (full : s.Full) {cell : Cell} :
    cell ∈ s.cells.toList ↔ ∃ p, s.cell? p = some cell := by
  have member : some cell ∈ s.size.positions.map s.cell? ↔ cell ∈ s.cells.toList := by
    rw [full.map_cell?_positions]
    simp
  rw [← member, List.mem_map]
  exact ⟨fun ⟨p, _, found⟩ => ⟨p, found⟩,
    fun ⟨p, found⟩ => ⟨p, Vec.mem_positions.mpr (inBounds_of_cell? found), found⟩⟩

end Snapshot

end FallingSand
