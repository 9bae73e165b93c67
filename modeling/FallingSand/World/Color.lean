/-!
# Colors

A color has three channels of eight bits. A color range holds every color whose
channels lie between those of its two corners.
-/

namespace FallingSand

/-- A color with red, green and blue channels. -/
structure Color where
  r : UInt8
  g : UInt8
  b : UInt8
  deriving DecidableEq, Repr, Inhabited

def Color.black : Color := ⟨0, 0, 0⟩

/-- The colors between two corners, which are in order in every channel. -/
structure ColorRange where
  low : Color
  high : Color
  deriving DecidableEq, Repr

namespace ColorRange

/-- The range between two colors, whichever is larger in each channel. -/
def between (a b : Color) : ColorRange where
  low := ⟨min a.r b.r, min a.g b.g, min a.b b.b⟩
  high := ⟨max a.r b.r, max a.g b.g, max a.b b.b⟩

/-- The range of one color. -/
def single (c : Color) : ColorRange := ⟨c, c⟩

/-- The channel values from `low` to `high`, both included. -/
def channel (low high : UInt8) : List UInt8 :=
  (List.range' low.toNat (high.toNat + 1 - low.toNat)).map UInt8.ofNat

/-- The colors of a range, by red, then green, then blue. -/
def colors (range : ColorRange) : List Color :=
  (channel range.low.r range.high.r).flatMap fun r =>
    (channel range.low.g range.high.g).flatMap fun g =>
      (channel range.low.b range.high.b).map fun b => ⟨r, g, b⟩

def channelCount (low high : UInt8) : Nat := high.toNat + 1 - low.toNat

def count (range : ColorRange) : Nat :=
  channelCount range.low.r range.high.r * channelCount range.low.g range.high.g
    * channelCount range.low.b range.high.b

@[simp] theorem length_channel (low high : UInt8) :
    (channel low high).length = channelCount low high := by
  simp [channel, channelCount]

/-- The number of colors that are listed. -/
theorem length_colors (range : ColorRange) : range.colors.length = range.count := by
  simp [colors, count, List.length_flatMap, List.map_const', Nat.mul_assoc]

end ColorRange

end FallingSand
