import FallingSand.Engine.Orientation
import FallingSand.Proofs.Geometry.Bounds

/-!
# The laws of orientations

An orientation keeps the length of every offset, and it maps the cells of the
mirrored box to those of the patterns one to one.
-/

namespace FallingSand.Orientation

theorem add_identity_apply_zero (p : Vec) : p + identity.apply Vec.zero = p := by
  ext1 <;> simp [apply, identity, sign, Vec.zero]

/-- Mirroring keeps the absolute value of a component, the least word included. -/
theorem abs_mul_sign (flip : Bool) (a : Int32) :
    (if a * sign flip < 0 then -(a * sign flip) else a * sign flip) =
      if a < 0 then -a else a := by
  cases flip with
  | false => simp [sign]
  | true =>
    have mirrored : a * sign true = -a := by
      show a * -1 = -a
      rw [Int32.mul_neg, Int32.mul_one]
    rw [mirrored]
    simp only [Int32.lt_iff_toInt_lt, Int32.toInt_zero]
    -- The least word is its own negation.
    by_cases least : a.toInt = -2147483648
    · have : -a = a := by
        apply Int32.toInt_inj.mp
        rw [Int32.toInt_neg, least]
        rfl
      simp [this]
    · rw [toInt_neg_of_ne least]
      have zero (h : a.toInt = 0) : a = 0 := Int32.toInt_inj.mp h
      split <;> split
      · omega
      · rw [Int32.neg_neg]
      · rfl
      · rw [zero (by omega)]
        rfl

theorem chebyshev_apply (o : Orientation) (offset : Vec) :
    (o.apply offset).chebyshev = offset.chebyshev := by
  have same : (o.apply offset).abs = offset.abs := by
    ext1
    · exact abs_mul_sign o.flipX offset.x
    · exact abs_mul_sign o.flipY offset.y
  rw [Vec.chebyshev, same, Vec.chebyshev]

/-- Between two positions of one grid a mirrored offset is as long as the offset. -/
theorem near_add_apply {o : Orientation} {p d size : Vec} (hp : p.inBounds size = true)
    (hq : (p + o.apply d).inBounds size = true) :
    Vec.Near p (p + o.apply d) d.chebyshev.toNat := by
  rw [← o.chebyshev_apply d]
  exact Vec.near_add hp hq

/-! ## The cells of a box -/

theorem mem_coordinates {rule : Rule} {column row : Nat} :
    (column, row) ∈ rule.coordinates ↔ column < rule.width.toNat ∧ row < rule.height.toNat := by
  simp only [Rule.coordinates, List.mem_flatMap, List.mem_map, List.mem_range, Prod.mk.injEq]
  constructor
  · rintro ⟨r, hr, c, hc, rfl, rfl⟩
    exact ⟨hc, hr⟩
  · rintro ⟨hc, hr⟩
    exact ⟨row, hr, column, hc, rfl, rfl⟩

/-- A whole pattern has a symbol for each coordinate of the box. -/
theorem place_lt_area {rule : Rule} {c : Nat × Nat} (known : c ∈ rule.coordinates) :
    rule.place c.1 c.2 < rule.area := by
  obtain ⟨hx, hy⟩ := mem_coordinates.mp known
  rw [Rule.place, Rule.area, Nat.mul_comm rule.width.toNat]
  calc c.2 * rule.width.toNat + c.1
      < (c.2 + 1) * rule.width.toNat := by rw [Nat.succ_mul]; omega
    _ ≤ rule.height.toNat * rule.width.toNat := Nat.mul_le_mul_right _ hy

theorem coordinates_nodup (rule : Rule) : rule.coordinates.Nodup := by
  rw [Rule.coordinates, List.nodup_flatMap]
  constructor
  · intro row _
    exact List.nodup_range.map fun a b h => congrArg Prod.fst h
  · refine List.nodup_range.imp fun {a b} different => ?_
    intro x hx hy
    simp only [List.mem_map] at hx hy
    obtain ⟨_, -, rfl⟩ := hx
    obtain ⟨_, -, same⟩ := hy
    exact different (congrArg Prod.snd same).symm

/-- Mirroring the patterns puts their coordinates into another order. -/
theorem coordinates_perm (o : Orientation) (rule : Rule) :
    (rule.coordinates.map fun c => o.patternCoordinate rule c.1 c.2).Perm rule.coordinates := by
  have twice {c : Nat × Nat} (hc : c ∈ rule.coordinates) :
      o.patternCoordinate rule (o.patternCoordinate rule c.1 c.2).1
        (o.patternCoordinate rule c.1 c.2).2 = c := by
    obtain ⟨column, row⟩ := c
    obtain ⟨hx, hy⟩ := mem_coordinates.mp hc
    unfold patternCoordinate
    ext
    · dsimp only
      split <;> omega
    · dsimp only
      split <;> omega
  have stays {c : Nat × Nat} (hc : c ∈ rule.coordinates) :
      o.patternCoordinate rule c.1 c.2 ∈ rule.coordinates := by
    obtain ⟨hx, hy⟩ := mem_coordinates.mp hc
    unfold patternCoordinate
    refine mem_coordinates.mpr ⟨?_, ?_⟩
    · split <;> omega
    · split <;> omega
  -- A map that is its own inverse on the coordinates permutes them.
  refine (List.perm_ext_iff_of_nodup ?_ (coordinates_nodup rule)).mpr ?_
  · refine List.Nodup.map_on ?_ (coordinates_nodup rule)
    intro c hc d hd same
    rw [← twice hc, same, twice hd]
  · intro c
    constructor
    · intro member
      obtain ⟨d, hd, rfl⟩ := List.mem_map.mp member
      exact stays hd
    · intro member
      exact List.mem_map.mpr ⟨_, stays member, twice member⟩

/-- Where a coordinate of the patterns lies. -/
def spot (o : Orientation) (rule : Rule) (target v : Vec) : Vec :=
  target + o.apply (v - rule.anchor)

theorem spot_add (o : Orientation) (rule : Rule) (target source : Vec) :
    o.spot rule target (rule.anchor + source) = target + o.apply source := by
  have same : rule.anchor + source - rule.anchor = source := by
    ext1
    · show rule.anchor.x + source.x - rule.anchor.x = source.x
      grind
    · show rule.anchor.y + source.y - rule.anchor.y = source.y
      grind
  rw [spot, same]

theorem spot_anchor (o : Orientation) (rule : Rule) (target : Vec) :
    o.spot rule target rule.anchor = target := by
  ext1
  · show target.x + (rule.anchor.x - rule.anchor.x) * sign o.flipX = target.x
    grind
  · show target.y + (rule.anchor.y - rule.anchor.y) * sign o.flipY = target.y
    grind

theorem spot_axis (flip : Bool) (t a : Int32) {columns n : Nat} (hn : n < columns) :
    t - (if flip then Int32.ofNat columns - 1 - a else a) + Int32.ofNat n =
      t + (Int32.ofNat (if flip then columns - 1 - n else n) - a) * sign flip := by
  cases flip with
  | false =>
    show t - a + Int32.ofNat n = t + (Int32.ofNat n - a) * 1
    grind
  | true =>
    have image : Int32.ofNat (columns - 1 - n) = Int32.ofNat columns - 1 - Int32.ofNat n := by
      rw [Int32.ofNat_sub _ _ (by omega), Int32.ofNat_sub _ _ (by omega)]
      rfl
    show t - (Int32.ofNat columns - 1 - a) + Int32.ofNat n =
      t + (Int32.ofNat (columns - 1 - n) - a) * -1
    rw [image]
    grind

theorem box_eq (o : Orientation) (rule : Rule) (target : Vec) :
    o.box rule target = (rule.coordinates.map fun c => o.patternCoordinate rule c.1 c.2).map
      fun c => (o.spot rule target (Vec.ofNat c.1 c.2), c) := by
  rw [box, List.map_map]
  refine List.map_congr_left ?_
  intro c hc
  obtain ⟨column, row⟩ := c
  obtain ⟨hx, hy⟩ := mem_coordinates.mp hc
  refine Prod.ext ?_ rfl
  ext1
  · exact spot_axis o.flipX target.x rule.anchor.x hx
  · exact spot_axis o.flipY target.y rule.anchor.y hy

/-- Whatever the orientation, the box has each coordinate of the patterns at its spot. -/
theorem box_perm (o : Orientation) (rule : Rule) (target : Vec) :
    (o.box rule target).Perm
      (rule.coordinates.map fun c => (o.spot rule target (Vec.ofNat c.1 c.2), c)) := by
  rw [box_eq]
  exact (o.coordinates_perm rule).map _

theorem box_coordinates_perm (o : Orientation) (rule : Rule) (target : Vec) :
    ((o.box rule target).map Prod.snd).Perm rule.coordinates := by
  have perm := (o.box_perm rule target).map Prod.snd
  rw [List.map_map] at perm
  exact perm.trans (List.Perm.of_eq (List.map_id _))

theorem box_coordinates_nodup (o : Orientation) (rule : Rule) (target : Vec) :
    ((o.box rule target).map Prod.snd).Nodup :=
  (o.box_coordinates_perm rule target).nodup_iff.mpr (coordinates_nodup rule)

theorem box_spot {o : Orientation} {rule : Rule} {target : Vec} {entry : Vec × Nat × Nat}
    (member : entry ∈ o.box rule target) :
    entry.1 = o.spot rule target (Vec.ofNat entry.2.1 entry.2.2) := by
  obtain ⟨c, -, rfl⟩ := List.mem_map.mp ((o.box_perm rule target).mem_iff.mp member)
  rfl

/-- The box has the cell of each column and row at its spot, and no others. -/
theorem mem_box {o : Orientation} {rule : Rule} {target p : Vec} {column row : Nat} :
    (p, column, row) ∈ o.box rule target ↔
      (column < rule.width.toNat ∧ row < rule.height.toNat) ∧
        p = o.spot rule target (Vec.ofNat column row) := by
  rw [(o.box_perm rule target).mem_iff, ← mem_coordinates]
  constructor
  · intro member
    obtain ⟨c, known, same⟩ := List.mem_map.mp member
    cases same
    exact ⟨known, rfl⟩
  · rintro ⟨known, rfl⟩
    exact List.mem_map.mpr ⟨(column, row), known, rfl⟩

theorem ofNat_injOn {m n k : Nat} (hm : m < k) (hn : n < k) (small : k < 2 ^ 31)
    (same : Int32.ofNat m = Int32.ofNat n) : m = n := by
  have := congrArg Int32.toInt same
  rw [Int32.toInt_ofNat_of_lt (by omega), Int32.toInt_ofNat_of_lt (by omega)] at this
  omega

/-- The cells of a box are different. -/
theorem box_nodup (o : Orientation) (rule : Rule) (target : Vec) :
    ((o.box rule target).map Prod.fst).Nodup := by
  have := rule.width.toNat_lt
  have := rule.height.toNat_lt
  rw [box, List.map_map]
  refine List.Nodup.map_on ?_ (coordinates_nodup rule)
  intro c hc d hd same
  obtain ⟨column, row⟩ := c
  obtain ⟨column', row'⟩ := d
  obtain ⟨hx, hy⟩ := mem_coordinates.mp hc
  obtain ⟨hx', hy'⟩ := mem_coordinates.mp hd
  have x : (o.boxOrigin rule target).x + Int32.ofNat column =
      (o.boxOrigin rule target).x + Int32.ofNat column' := congrArg Vec.x same
  have y : (o.boxOrigin rule target).y + Int32.ofNat row =
      (o.boxOrigin rule target).y + Int32.ofNat row' := congrArg Vec.y same
  ext
  · exact ofNat_injOn hx hx' (by omega) (by grind)
  · exact ofNat_injOn hy hy' (by omega) (by grind)

end FallingSand.Orientation
