import FallingSand.Proofs.Script.PlainLines
import Mathlib.Data.List.Forall2
import Mathlib.Data.List.Nodup

/-!
# Preloaded colors

A range of colors is a box with two corners: a color lies in it if each of its channels lies
between those of the corners, whichever of the two is larger there. The colors that a world
prepares are listed box by box. Each color of a box is listed once, and the order is by red, then
by green, then by blue (`preloadColors_list_boxes`).

It makes no difference which corner a channel value is written in: the corners are sorted channel
by channel, and what is listed depends on the sorted ones only.
-/

namespace FallingSand

namespace Color

/-- Whether a color comes before another one: by red, then by green, then by blue. -/
def Before (c d : Color) : Prop :=
  c.r < d.r ∨ c.r = d.r ∧ (c.g < d.g ∨ c.g = d.g ∧ c.b < d.b)

/-- Whether a value is one of two others or between them, in whichever order they are. -/
def Between (x y z : UInt8) : Prop := x ≤ z ∧ z ≤ y ∨ y ≤ z ∧ z ≤ x

instance (x y z : UInt8) : Decidable (Between x y z) := inferInstanceAs (Decidable (_ ∨ _))

/-- Whether a color lies in the box with two given corners. -/
def InBox (a b c : Color) : Prop :=
  Between a.r b.r c.r ∧ Between a.g b.g c.g ∧ Between a.b b.b c.b

instance (a b c : Color) : Decidable (InBox a b c) := inferInstanceAs (Decidable (_ ∧ _))

/-- How far two values are apart. -/
def gap (x y : UInt8) : Nat := ((x.toNat : Int) - y.toNat).natAbs

/-- The number of colors in the box with two given corners. -/
def volume (a b : Color) : Nat := (gap a.r b.r + 1) * (gap a.g b.g + 1) * (gap a.b b.b + 1)

/-- Whether some colors are those of a box: each of them once, no others, and in order. -/
structure Lists (colors : List Color) (a b : Color) : Prop where
  once : ∀ c, colors.count c = if InBox a b c then 1 else 0
  ordered : colors.Pairwise Before

/-- Corners before and after values of them change places: all of them, or those of a single
channel, or none. -/
inductive Exchanged : Color × Color → Color × Color → Prop
  | none (a b : Color) : Exchanged (a, b) (a, b)
  | corners (a b : Color) : Exchanged (a, b) (b, a)
  | red (a b : Color) : Exchanged (a, b) ({ a with r := b.r }, { b with r := a.r })
  | green (a b : Color) : Exchanged (a, b) ({ a with g := b.g }, { b with g := a.g })
  | blue (a b : Color) : Exchanged (a, b) ({ a with b := b.b }, { b with b := a.b })

theorem Before.ne {c d : Color} (before : c.Before d) : c ≠ d := by
  rintro rfl
  rcases before with red | ⟨-, green | ⟨-, blue⟩⟩
  · exact UInt8.lt_irrefl _ red
  · exact UInt8.lt_irrefl _ green
  · exact UInt8.lt_irrefl _ blue

end Color

open Color

/-! ## A channel -/

theorem min_le_and_le_max_iff {x y z : UInt8} : min x y ≤ z ∧ z ≤ max x y ↔ Between x y z := by
  rw [Between]
  simp only [UInt8.le_iff_toNat_le, UInt8.toNat_min, UInt8.toNat_max]
  omega

namespace ColorRange

theorem mem_channel_iff {low high x : UInt8} : x ∈ channel low high ↔ low ≤ x ∧ x ≤ high := by
  have bound := high.toNat_lt
  simp only [channel, List.mem_map, List.mem_range'_1, UInt8.le_iff_toNat_le]
  constructor
  · rintro ⟨n, ⟨least, greatest⟩, rfl⟩
    rw [UInt8.toNat_ofNat_of_lt' (by simp only [UInt8.size]; omega)]
    omega
  · rintro ⟨least, greatest⟩
    exact ⟨x.toNat, by omega, UInt8.ofNat_toNat⟩

/-- The values of a channel are listed in order, up to the largest one that there is. -/
theorem pairwise_channel (low high : UInt8) : (channel low high).Pairwise (· < ·) := by
  have bound := high.toNat_lt
  rw [channel, List.pairwise_map]
  refine List.Pairwise.imp_of_mem (fun {m n} left right less => ?_) (List.pairwise_lt_range' 1)
  rw [List.mem_range'_1] at left right
  rw [UInt8.lt_iff_toNat_lt, UInt8.toNat_ofNat_of_lt' (by simp only [UInt8.size]; omega),
    UInt8.toNat_ofNat_of_lt' (by simp only [UInt8.size]; omega)]
  exact less

theorem channelCount_sorted (x y : UInt8) : channelCount (min x y) (max x y) = gap x y + 1 := by
  rw [channelCount, gap, UInt8.toNat_min, UInt8.toNat_max]
  omega

/-! ## A box -/

theorem mem_colors_iff {range : ColorRange} {c : Color} : c ∈ range.colors ↔
    (range.low.r ≤ c.r ∧ c.r ≤ range.high.r) ∧ (range.low.g ≤ c.g ∧ c.g ≤ range.high.g) ∧
      range.low.b ≤ c.b ∧ c.b ≤ range.high.b := by
  simp only [colors, List.mem_flatMap, List.mem_map, mem_channel_iff]
  constructor
  · rintro ⟨r, red, g, green, b, blue, rfl⟩
    exact ⟨red, green, blue⟩
  · rintro ⟨red, green, blue⟩
    exact ⟨c.r, red, c.g, green, c.b, blue, rfl⟩

/-- The colors of a range are listed in order: those with one red value before those with the
next, among these those with one green value before those with the next. -/
theorem pairwise_colors (range : ColorRange) : range.colors.Pairwise Before := by
  unfold colors
  refine List.pairwise_flatMap.mpr ⟨fun r _ => List.pairwise_flatMap.mpr ⟨fun g _ => ?_, ?_⟩, ?_⟩
  · rw [List.pairwise_map]
    exact (pairwise_channel _ _).imp fun less => .inr ⟨rfl, .inr ⟨rfl, less⟩⟩
  · refine (pairwise_channel _ _).imp fun {g g'} less c left d right => ?_
    obtain ⟨b, -, rfl⟩ := List.mem_map.mp left
    obtain ⟨b', -, rfl⟩ := List.mem_map.mp right
    exact .inr ⟨rfl, .inl less⟩
  · refine (pairwise_channel _ _).imp fun {r r'} less c left d right => ?_
    obtain ⟨g, -, inner⟩ := List.mem_flatMap.mp left
    obtain ⟨b, -, rfl⟩ := List.mem_map.mp inner
    obtain ⟨g', -, inner'⟩ := List.mem_flatMap.mp right
    obtain ⟨b', -, rfl⟩ := List.mem_map.mp inner'
    exact .inl less

variable (a b : Color)

theorem mem_colors_between_iff {c : Color} : c ∈ (between a b).colors ↔ InBox a b c := by
  rw [mem_colors_iff, InBox, ← min_le_and_le_max_iff, ← min_le_and_le_max_iff,
    ← min_le_and_le_max_iff]
  rfl

theorem lists_colors_between : Lists (between a b).colors a b where
  ordered := pairwise_colors _
  once c := by
    have distinct : (between a b).colors.Nodup := (pairwise_colors _).imp Before.ne
    rw [distinct.count]
    simp only [mem_colors_between_iff]

theorem length_colors_between : (between a b).colors.length = volume a b := by
  rw [length_colors, count, volume, ← channelCount_sorted, ← channelCount_sorted,
    ← channelCount_sorted]
  rfl

/-- Sorted corners are the same ones after an exchange. -/
theorem between_of_exchanged {p q : Color × Color} (exchanged : Exchanged p q) :
    between q.1 q.2 = between p.1 p.2 := by
  have min_comm (x y : UInt8) : min x y = min y x :=
    UInt8.toNat_inj.mp (by rw [UInt8.toNat_min, UInt8.toNat_min, Nat.min_comm])
  have max_comm (x y : UInt8) : max x y = max y x :=
    UInt8.toNat_inj.mp (by rw [UInt8.toNat_max, UInt8.toNat_max, Nat.max_comm])
  cases exchanged with
  | none => rfl
  | corners a b | red a b | green a b | blue a b =>
    simp only [between, min_comm b.r a.r, max_comm b.r a.r, min_comm b.g a.g, max_comm b.g a.g,
      min_comm b.b a.b, max_comm b.b a.b]

end ColorRange

/-! ## All boxes of a world -/

/-- A world whose ranges are given by their corners prepares the colors of the boxes, box by box.
They are as many as the boxes hold together, and they stay the same when corners or channel values
of them change places. -/
theorem World.preloadColors_list_boxes {world : World} {corners : List (Color × Color)}
    (given : world.preload = corners.map fun p => .between p.1 p.2) :
    (∃ boxes : List (List Color), world.preloadColors = boxes.flatten ∧
      List.Forall₂ (fun colors p => Lists colors p.1 p.2) boxes corners) ∧
    world.preloadColors.length = (corners.map fun p => volume p.1 p.2).sum ∧
    ∀ {world' : World} {corners' : List (Color × Color)},
      world'.preload = (corners'.map fun p => .between p.1 p.2) →
      List.Forall₂ Exchanged corners corners' → world'.preloadColors = world.preloadColors := by
  refine ⟨⟨world.preload.map ColorRange.colors, ?_, ?_⟩, ?_, ?_⟩
  · rw [preloadColors, List.flatMap_def]
  · rw [given, List.map_map, List.forall₂_map_left_iff]
    exact List.forall₂_same.mpr fun p _ => ColorRange.lists_colors_between p.1 p.2
  · rw [preloadColors, List.length_flatMap, given, List.map_map]
    refine congrArg List.sum (List.map_congr_left fun p _ => ?_)
    exact ColorRange.length_colors_between p.1 p.2
  · intro world' corners' given' exchanged
    have same : world'.preload = world.preload := by
      rw [given, given']
      clear given given'
      induction exchanged with
      | nil => rfl
      | cons first _ ih =>
        rw [List.map_cons, List.map_cons, ih, ColorRange.between_of_exchanged first]
    rw [preloadColors, preloadColors, same]

/-- Corners of which neither is the larger one in all channels, with channels that go up to the
largest value; others; and a single color. -/
def duskCorners : List (Color × Color) :=
  [(⟨255, 0, 254⟩, ⟨254, 1, 255⟩), (⟨10, 0, 5⟩, ⟨8, 2, 5⟩), (⟨0, 0, 0⟩, ⟨0, 0, 0⟩)]

/-- The same with the reds of the first pair and the corners of the second exchanged. -/
def dawnCorners : List (Color × Color) :=
  [(⟨254, 0, 254⟩, ⟨255, 1, 255⟩), (⟨8, 2, 5⟩, ⟨10, 0, 5⟩), (⟨0, 0, 0⟩, ⟨0, 0, 0⟩)]

def dusk : List Char :=
  Script.scriptOf (["preload #FF00FE #FE01FF", "preload #0A0005 #080205", "preload #000000",
    "atom Empty \x7b", "\x7d"].map String.toList)

def dawn : List Char :=
  Script.scriptOf (["preload #FE00FE #FF01FF", "preload #080205 #0A0005", "preload #000000",
    "atom Empty \x7b", "\x7d"].map String.toList)

/-- Both scripts prepare eight colors, nine and one, in the same order. -/
theorem World.dusk_lists_boxes : ∃ compiled compiled', Script.compile dusk = .ok compiled ∧
    Script.compile dawn = .ok compiled' ∧
    compiled.world.preload = (duskCorners.map fun p => .between p.1 p.2) ∧
    compiled'.world.preload = (dawnCorners.map fun p => .between p.1 p.2) ∧
    List.Forall₂ Exchanged duskCorners dawnCorners ∧
    (∃ boxes : List (List Color), compiled.world.preloadColors = boxes.flatten ∧
      List.Forall₂ (fun colors p => Lists colors p.1 p.2) boxes duskCorners) ∧
    compiled.world.preloadColors.length = 8 + 9 + 1 ∧
    compiled'.world.preloadColors = compiled.world.preloadColors := by
  have compiles : (Script.compile dusk).toOption.isSome = true := by decide +kernel
  have compiles' : (Script.compile dawn).toOption.isSome = true := by decide +kernel
  have given : ∀ compiled ∈ (Script.compile dusk).toOption,
      compiled.world.preload = (duskCorners.map fun p => .between p.1 p.2) := by decide +kernel
  have given' : ∀ compiled ∈ (Script.compile dawn).toOption,
      compiled.world.preload = (dawnCorners.map fun p => .between p.1 p.2) := by decide +kernel
  obtain ⟨compiled, h⟩ := Option.isSome_iff_exists.mp compiles
  obtain ⟨compiled', h'⟩ := Option.isSome_iff_exists.mp compiles'
  have given := given compiled h
  have given' := given' compiled' h'
  have exchanged : List.Forall₂ Exchanged duskCorners dawnCorners :=
    .cons (.red _ _) (.cons (.corners _ _) (.cons (.none _ _) .nil))
  obtain ⟨boxes, number, same⟩ := preloadColors_list_boxes given
  exact ⟨compiled, compiled', Script.eq_ok_of_toOption h, Script.eq_ok_of_toOption h', given,
    given', exchanged, boxes, number, same given' exchanged⟩

end FallingSand
