import FallingSand.Geometry.Vec
import Mathlib.Data.List.Nodup
import Mathlib.Data.List.ProdSigma
import Mathlib.Tactic.Ring

/-!
# Bounds of positions

Arithmetic of positions wraps, but between two positions of one grid nothing
does: the offset that leads from the one to the other is their exact
difference. The facts of this module turn the tests on 32-bit components into
statements on integers, and the row-by-row numbering of the positions inside a
size into an honest bijection with an initial segment of the naturals.
-/

namespace FallingSand

/-! ## Words -/

/-- A sum is exact up to a multiple of the number of words. -/
theorem toInt_add_wraps (a b : Int32) :
    ∃ k : Int, (a + b).toInt = a.toInt + b.toInt + k * 4294967296 := by
  refine ⟨-((a.toInt + b.toInt - (a + b).toInt) / 4294967296), ?_⟩
  rw [Int32.toInt_add]
  have := Int.bmod_def (a.toInt + b.toInt) 4294967296
  norm_num at this ⊢
  split at this <;> omega

/-- A difference is exact up to a multiple of the number of words. -/
theorem toInt_sub_wraps (a b : Int32) :
    ∃ k : Int, (a - b).toInt = a.toInt - b.toInt + k * 4294967296 := by
  refine ⟨-((a.toInt - b.toInt - (a - b).toInt) / 4294967296), ?_⟩
  rw [Int32.toInt_sub]
  have := Int.bmod_def (a.toInt - b.toInt) 4294967296
  norm_num at this ⊢
  split at this <;> omega

/-- The word of a number has its value up to a multiple of the number of words. -/
theorem toInt_ofNat_wraps (n : Nat) :
    ∃ k : Int, (Int32.ofNat n).toInt = n + k * 4294967296 := by
  refine ⟨-((n - (Int32.ofNat n).toInt) / 4294967296), ?_⟩
  rw [Int32.toInt_ofNat']
  have := Int.bmod_def (n : Int) 4294967296
  norm_num [Int32.size] at this ⊢
  split at this <;> omega

/-- A sum that fits into a word is exact. -/
theorem toInt_add_of_fits {a b : Int32} (low : -2147483648 ≤ a.toInt + b.toInt)
    (high : a.toInt + b.toInt < 2147483648) : (a + b).toInt = a.toInt + b.toInt := by
  obtain ⟨k, hk⟩ := toInt_add_wraps a b
  have := (a + b).toInt_lt
  have := (a + b).le_toInt
  omega

/-- A difference that fits into a word is exact. -/
theorem toInt_sub_of_fits {a b : Int32} (low : -2147483648 ≤ a.toInt - b.toInt)
    (high : a.toInt - b.toInt < 2147483648) : (a - b).toInt = a.toInt - b.toInt := by
  obtain ⟨k, hk⟩ := toInt_sub_wraps a b
  have := (a - b).toInt_lt
  have := (a - b).le_toInt
  omega

theorem toInt_pred {a : Int32} (h : 0 ≤ a.toInt) : (a - 1).toInt = a.toInt - 1 := by
  have one : (1 : Int32).toInt = 1 := rfl
  have := a.toInt_lt
  rw [toInt_sub_of_fits] <;> rw [one] <;> omega

theorem toInt_succ {a b : Int32} (h : a.toInt < b.toInt) : (a + 1).toInt = a.toInt + 1 := by
  have one : (1 : Int32).toInt = 1 := rfl
  have := a.le_toInt
  have := b.toInt_lt
  rw [toInt_add_of_fits] <;> rw [one] <;> omega

theorem toInt_max_zero (a : Int32) : (if a ≤ 0 then 0 else a).toInt = max a.toInt 0 := by
  simp only [Int32.le_iff_toInt_le, Int32.toInt_zero]
  split
  · simp only [Int32.toInt_zero]
    omega
  · omega

/-- The smaller one of a word and the last coordinate of an axis. -/
theorem toInt_min_pred {a n : Int32} (h : 0 ≤ n.toInt) :
    (if a ≤ n - 1 then a else n - 1).toInt = min a.toInt (n.toInt - 1) := by
  have last := toInt_pred h
  simp only [Int32.le_iff_toInt_le, last]
  split <;> omega

/-- A product that fits into a word is exact. -/
theorem toInt_mul_of_fits {a b : Int32} (low : -2147483648 ≤ a.toInt * b.toInt)
    (high : a.toInt * b.toInt < 2147483648) : (a * b).toInt = a.toInt * b.toInt := by
  rw [Int32.toInt_mul]
  exact Int.bmod_eq_of_le (by omega) (by omega)

/-- Only the least word has no negation. -/
theorem toInt_neg_of_ne {a : Int32} (h : a.toInt ≠ -2147483648) : (-a).toInt = -a.toInt := by
  have := toInt_sub_of_fits (a := 0) (b := a)
    (by have := a.toInt_lt; simp; omega) (by have := a.le_toInt; simp; omega)
  simpa using this

/-- A quotient of nonnegative words is that of the integers. -/
theorem toInt_div_of_nonneg {a b : Int32} (ha : 0 ≤ a.toInt) (hb : 0 ≤ b.toInt) :
    (a / b).toInt = a.toInt / b.toInt := by
  have different : b ≠ -1 := by
    rintro rfl
    exact absurd hb (by decide)
  rw [Int32.toInt_div_of_ne_right a b different, Int.tdiv_eq_ediv_of_nonneg ha]

/-- A word below `2 ^ 31` is the same number with and without a sign. -/
theorem toInt_toInt32 {a : UInt32} (h : a.toNat < 2147483648) : a.toInt32.toInt = a.toNat := by
  have := UInt32.toInt32_ofNat' (n := a.toNat)
  rw [UInt32.ofNat_toNat] at this
  rw [this, Int32.toInt_ofNat_of_lt h]

/-- A word that is not negative is the same number without a sign. -/
theorem toNat_toUInt32 {a : Int32} (h : 0 ≤ a.toInt) : (a.toUInt32.toNat : Int) = a.toInt := by
  have := Int32.ofNat_toNatClampNeg a (by simpa [Int32.le_iff_toInt_le] using h)
  have bound := a.toInt_lt
  rw [← this, Int32.toUInt32_ofNat', UInt32.toNat_ofNat', Int32.toInt_ofNat_of_lt]
  all_goals simp only [Int32.toNatClampNeg]; omega

namespace Vec

@[ext] theorem ext {a b : Vec} (x : a.x = b.x) (y : a.y = b.y) : a = b := by
  cases a
  cases b
  simp_all

theorem add_sub_cancel (a b : Vec) : a + (b - a) = b := by
  ext1
  · show a.x + (b.x - a.x) = b.x
    rw [Int32.add_comm, Int32.sub_add_cancel]
  · show a.y + (b.y - a.y) = b.y
    rw [Int32.add_comm, Int32.sub_add_cancel]

theorem add_sub_self_left (a d : Vec) : a + d - a = d := by
  ext1
  · show a.x + d.x - a.x = d.x
    rw [Int32.add_comm, Int32.add_sub_cancel]
  · show a.y + d.y - a.y = d.y
    rw [Int32.add_comm, Int32.add_sub_cancel]

/-! ## Positions inside a size -/

theorem inBounds_iff (p size : Vec) : p.inBounds size = true ↔
    (0 ≤ p.x.toInt ∧ p.x.toInt < size.x.toInt) ∧ 0 ≤ p.y.toInt ∧ p.y.toInt < size.y.toInt := by
  simp only [inBounds, Int32.le_iff_toInt_le, Int32.lt_iff_toInt_lt, Int32.toInt_zero,
    Bool.and_eq_true, decide_eq_true_eq]
  tauto

/-- The distance of two positions on either axis is at most `distance`. -/
def Near (a b : Vec) (distance : Nat) : Prop :=
  (b.x.toInt - a.x.toInt).natAbs ≤ distance ∧ (b.y.toInt - a.y.toInt).natAbs ≤ distance

theorem Near.mono {a b : Vec} {m n : Nat} (near : Near a b m) (le : m ≤ n) : Near a b n :=
  ⟨near.1.trans le, near.2.trans le⟩

theorem near_self (a : Vec) (distance : Nat) : Near a a distance := by simp [Near]

/-- A sum of two words within the same bounds as the first summand is exact. -/
theorem toInt_add_of_inside {a d size : Int32} (ha : 0 ≤ a.toInt ∧ a.toInt < size.toInt)
    (hp : 0 ≤ (a + d).toInt ∧ (a + d).toInt < size.toInt) :
    (a + d).toInt = a.toInt + d.toInt := by
  obtain ⟨k, hk⟩ := toInt_add_wraps a d
  have := d.toInt_lt
  have := d.le_toInt
  have := size.toInt_lt
  omega

/-- Where no component is the least word, the Chebyshev distance bounds both. -/
theorem natAbs_le_chebyshev {d : Vec} (hx : d.x.toInt ≠ -2147483648)
    (hy : d.y.toInt ≠ -2147483648) :
    d.x.toInt.natAbs ≤ d.chebyshev.toNat ∧ d.y.toInt.natAbs ≤ d.chebyshev.toNat := by
  have absolute (a : Int32) (h : a.toInt ≠ -2147483648) :
      (if a < 0 then -a else a).toInt = a.toInt.natAbs := by
    simp only [Int32.lt_iff_toInt_lt, Int32.toInt_zero]
    split
    · rw [toInt_neg_of_ne h]
      omega
    · omega
  have ax := absolute d.x hx
  have ay := absolute d.y hy
  simp only [chebyshev, abs, largest, Int32.le_iff_toInt_le, ax, ay]
  split
  · have := toNat_toUInt32 (ay ▸ Int.natCast_nonneg _)
    omega
  · have := toNat_toUInt32 (ax ▸ Int.natCast_nonneg _)
    omega

/-- Between two positions of one grid an offset is as long as it looks. -/
theorem near_add {p d size : Vec} (hp : p.inBounds size = true)
    (hq : (p + d).inBounds size = true) : Near p (p + d) d.chebyshev.toNat := by
  rw [inBounds_iff] at hp hq
  have hx := toInt_add_of_inside hp.1 hq.1
  have hy := toInt_add_of_inside hp.2 hq.2
  simp only [add_x, add_y] at hq
  have := size.x.toInt_lt
  have := size.y.toInt_lt
  obtain ⟨boundX, boundY⟩ := natAbs_le_chebyshev (d := d) (by omega) (by omega)
  exact ⟨by simp only [add_x]; omega, by simp only [add_y]; omega⟩

/-! ## The numbering of positions -/

theorem columns_lt (size : Vec) : size.columns < 2 ^ 31 := size.x.toNatClampNeg_lt

theorem rows_lt (size : Vec) : size.rows < 2 ^ 31 := size.y.toNatClampNeg_lt

theorem place_ofNat {size : Vec} {column row : Nat} (hc : column < size.columns)
    (hr : row < size.rows) : (ofNat column row).place size = row * size.columns + column := by
  simp only [place, ofNat]
  rw [Int32.toNatClampNeg_ofNat_of_lt (hc.trans size.columns_lt),
    Int32.toNatClampNeg_ofNat_of_lt (hr.trans size.rows_lt)]

/-- Row by row, the places of the positions inside a size are `0, 1, 2, …`. -/
theorem map_place_positions (size : Vec) :
    size.positions.map (·.place size) = List.range size.area := by
  have rowPlaces (row : Nat) (hr : row < size.rows) :
      ((List.range size.columns).map fun column => ofNat column row).map (·.place size) =
        (List.range size.columns).map (row * size.columns + ·) := by
    rw [List.map_map]
    refine List.map_congr_left ?_
    intro column hc
    exact place_ofNat (List.mem_range.mp hc) hr
  -- By induction on the number of rows: each continues where the one above it ends.
  have upTo : ∀ n ≤ size.rows,
      ((List.range n).flatMap fun row =>
        (List.range size.columns).map fun column => ofNat column row).map (·.place size) =
          List.range (n * size.columns) := by
    intro n
    induction n with
    | zero => simp
    | succ n ih =>
      intro hn
      rw [List.range_succ, List.flatMap_append, List.map_append, ih (by omega)]
      simp only [List.flatMap_singleton]
      rw [rowPlaces n (by omega), Nat.succ_mul, List.range_add]
  have := upTo size.rows le_rfl
  rwa [Nat.mul_comm] at this

theorem nodup_positions (size : Vec) : size.positions.Nodup := by
  have : (size.positions.map (·.place size)).Nodup := by
    rw [map_place_positions]
    exact List.nodup_range
  exact this.of_map _

theorem length_positions (size : Vec) : size.positions.length = size.area := by
  have := congrArg List.length (map_place_positions size)
  simpa using this

/-- A position with components below `2 ^ 31` is inside a size when they are. -/
theorem inBounds_ofNat {size : Vec} {column row : Nat} (hc : column < size.columns)
    (hr : row < size.rows) : (ofNat column row).inBounds size = true := by
  have := size.columns_lt
  have := size.rows_lt
  simp only [columns, rows, Int32.toNatClampNeg] at hc hr
  rw [inBounds_iff]
  simp only [ofNat]
  rw [Int32.toInt_ofNat_of_lt (by grind [columns, Int32.toNatClampNeg]),
    Int32.toInt_ofNat_of_lt (by grind [rows, Int32.toNatClampNeg])]
  omega

/-- The column and the row of a position inside a size. -/
theorem eq_ofNat_of_inBounds {p size : Vec} (h : p.inBounds size = true) :
    p = ofNat p.x.toNatClampNeg p.y.toNatClampNeg ∧
      p.x.toNatClampNeg < size.columns ∧ p.y.toNatClampNeg < size.rows := by
  rw [inBounds_iff] at h
  refine ⟨?_, ?_, ?_⟩
  · ext1
    · exact (Int32.ofNat_toNatClampNeg p.x (by simpa [Int32.le_iff_toInt_le] using h.1.1)).symm
    · exact (Int32.ofNat_toNatClampNeg p.y (by simpa [Int32.le_iff_toInt_le] using h.2.1)).symm
  · simp only [columns, Int32.toNatClampNeg]
    omega
  · simp only [rows, Int32.toNatClampNeg]
    omega

theorem mem_positions {p size : Vec} : p ∈ size.positions ↔ p.inBounds size = true := by
  simp only [positions, List.mem_flatMap, List.mem_map, List.mem_range]
  constructor
  · rintro ⟨row, hr, column, hc, rfl⟩
    exact inBounds_ofNat hc hr
  · intro h
    obtain ⟨eq, hc, hr⟩ := eq_ofNat_of_inBounds h
    exact ⟨_, hr, _, hc, eq.symm⟩

theorem place_lt {p size : Vec} (h : p.inBounds size = true) : p.place size < size.area := by
  have member : p.place size ∈ size.positions.map (·.place size) :=
    List.mem_map_of_mem (mem_positions.mpr h)
  rw [map_place_positions] at member
  exact List.mem_range.mp member

/-- Different positions inside a size have different places. -/
theorem place_injective {p q size : Vec} (hp : p.inBounds size = true)
    (hq : q.inBounds size = true) (h : p.place size = q.place size) : p = q := by
  have distinct : (size.positions.map (·.place size)).Nodup := by
    rw [map_place_positions]
    exact List.nodup_range
  exact List.inj_on_of_nodup_map distinct (mem_positions.mpr hp) (mem_positions.mpr hq) h

/-- The position at a place of the list is the position with that place. -/
theorem getElem?_positions_place {p size : Vec} (h : p.inBounds size = true) :
    size.positions[p.place size]? = some p := by
  have bound : p.place size < size.positions.length := by
    rw [length_positions]
    exact place_lt h
  have same : (size.positions.map (·.place size))[p.place size]? = some (p.place size) := by
    rw [map_place_positions]
    exact List.getElem?_range (place_lt h)
  rw [List.getElem?_map, List.getElem?_eq_getElem bound] at same
  have member := mem_positions.mp (List.getElem_mem bound)
  rw [List.getElem?_eq_getElem bound, place_injective member h (Option.some.inj same)]

/-- The area of a size, if it is a word, is worked out exactly. -/
theorem toInt_areaWord {size : Vec} (x : 0 ≤ size.x.toInt) (y : 0 ≤ size.y.toInt)
    (fits : size.area < 2147483648) : size.areaWord.toInt = size.area := by
  have whole : (size.area : Int) = size.x.toInt * size.y.toInt := by
    simp only [area, columns, rows, Int32.toNatClampNeg, Nat.cast_mul]
    rw [Int.toNat_of_nonneg x, Int.toNat_of_nonneg y]
  rw [areaWord, toInt_mul_of_fits] <;> omega

/-- Where the places of a size are words, they are worked out exactly. -/
theorem toInt_placeWord {p size : Vec} (inside : p.inBounds size = true)
    (fits : size.area < 2147483648) : (p.placeWord size).toInt = p.place size := by
  have below := place_lt inside
  rw [inBounds_iff] at inside
  have whole : (p.place size : Int) = p.y.toInt * size.x.toInt + p.x.toInt := by
    simp only [place, columns, Int32.toNatClampNeg, Nat.cast_add, Nat.cast_mul]
    rw [Int.toNat_of_nonneg (by omega), Int.toNat_of_nonneg (by omega),
      Int.toNat_of_nonneg (by omega)]
  have rows : 0 ≤ p.y.toInt * size.x.toInt := Int.mul_nonneg (by omega) (by omega)
  have product : (p.y * size.x).toInt = p.y.toInt * size.x.toInt := by
    apply toInt_mul_of_fits <;> omega
  rw [placeWord, toInt_add_of_fits] <;> rw [product] <;> omega

theorem area_le {a b : Vec} (x : a.x.toInt ≤ b.x.toInt) (y : a.y.toInt ≤ b.y.toInt) :
    a.area ≤ b.area := by
  unfold area columns rows Int32.toNatClampNeg
  exact Nat.mul_le_mul (Int.toNat_le_toNat x) (Int.toNat_le_toNat y)

/-! ## Rectangles -/

@[simp] theorem max_self (a : Vec) : a.max a = a := by simp [max]

@[simp] theorem min_self (a : Vec) : a.min a = a := by simp [min]

/-- Counting on from the first number of a range does not wrap. -/
theorem toInt_add_ofNat {a b : Int32} {n : Nat} (h : n < (b.toInt - a.toInt + 1).toNat) :
    (a + Int32.ofNat n).toInt = a.toInt + n := by
  have := a.le_toInt
  have := b.toInt_lt
  have := (a + Int32.ofNat n).toInt_lt
  have := (a + Int32.ofNat n).le_toInt
  obtain ⟨j, hj⟩ := toInt_ofNat_wraps n
  obtain ⟨k, hk⟩ := toInt_add_wraps a (Int32.ofNat n)
  omega

theorem mem_range {a b c : Int32} :
    c ∈ range a b ↔ a.toInt ≤ c.toInt ∧ c.toInt ≤ b.toInt := by
  simp only [range, List.mem_map, List.mem_range]
  constructor
  · rintro ⟨n, hn, rfl⟩
    have := toInt_add_ofNat hn
    omega
  · intro between
    have counted : (c.toInt - a.toInt).toNat < (b.toInt - a.toInt + 1).toNat := by omega
    refine ⟨(c.toInt - a.toInt).toNat, counted, Int32.toInt_inj.mp ?_⟩
    rw [toInt_add_ofNat counted]
    omega

theorem nodup_range (a b : Int32) : (range a b).Nodup := by
  refine List.Nodup.map_on ?_ List.nodup_range
  intro m hm n hn same
  have exact := congrArg Int32.toInt same
  rw [toInt_add_ofNat (List.mem_range.mp hm), toInt_add_ofNat (List.mem_range.mp hn)] at exact
  omega

/-- The positions of a rectangle are those between its corners. -/
theorem mem_rectangle {p low high : Vec} : p ∈ rectangle low high ↔
    (low.x.toInt ≤ p.x.toInt ∧ p.x.toInt ≤ high.x.toInt) ∧
      low.y.toInt ≤ p.y.toInt ∧ p.y.toInt ≤ high.y.toInt := by
  simp only [rectangle, List.mem_flatMap, List.mem_map]
  constructor
  · rintro ⟨y, hy, x, hx, rfl⟩
    exact ⟨mem_range.mp hx, mem_range.mp hy⟩
  · rintro ⟨hx, hy⟩
    exact ⟨p.y, mem_range.mpr hy, p.x, mem_range.mpr hx, rfl⟩

theorem nodup_rectangle (low high : Vec) : (rectangle low high).Nodup := by
  refine List.nodup_flatMap.mpr ⟨?_, ?_⟩
  · intro y _
    exact (nodup_range low.x high.x).map fun _ _ same => congrArg Vec.x same
  · refine (nodup_range low.y high.y).imp ?_
    intro y z different p hy hz
    obtain ⟨_, -, rfl⟩ := List.mem_map.mp hy
    obtain ⟨_, -, same⟩ := List.mem_map.mp hz
    exact different (congrArg Vec.y same).symm

theorem mem_rectangle_whole {size p : Vec} (inside : p.inBounds size = true) :
    p ∈ rectangle zero (size - one) := by
  rw [inBounds_iff] at inside
  have first : zero.x.toInt = 0 ∧ zero.y.toInt = 0 := ⟨rfl, rfl⟩
  have lastX : (size - one).x.toInt = _ := toInt_pred (a := size.x) (by omega)
  have lastY : (size - one).y.toInt = _ := toInt_pred (a := size.y) (by omega)
  refine mem_rectangle.mpr ?_
  omega

/-- The positions of a rectangle that is cut off at the edges of a grid are those of the
rectangle that the grid has. -/
theorem mem_clipped {size low high p : Vec} (hx : 0 ≤ size.x.toInt) (hy : 0 ≤ size.y.toInt) :
    p ∈ rectangle (low.max zero) (high.min (size - one)) ↔
      p.inBounds size = true ∧ p ∈ rectangle low high := by
  have lowX : (low.max zero).x.toInt = _ := toInt_max_zero low.x
  have lowY : (low.max zero).y.toInt = _ := toInt_max_zero low.y
  have highX : (high.min (size - one)).x.toInt = _ := toInt_min_pred hx
  have highY : (high.min (size - one)).y.toInt = _ := toInt_min_pred hy
  rw [mem_rectangle, mem_rectangle, inBounds_iff, lowX, lowY, highX, highY]
  omega

end Vec

end FallingSand
