/-!
# Vectors of the plane

Positions, offsets and sizes are pairs of 32-bit integers. `x` grows to the
right and `y` grows downwards. Arithmetic is by component and wraps, as that of
the integers does.
-/

namespace FallingSand

/-- A position, an offset or a size. -/
structure Vec where
  x : Int32
  y : Int32
  deriving DecidableEq, Repr, Inhabited

namespace Vec

def splat (n : Int32) : Vec := ⟨n, n⟩

def zero : Vec := ⟨0, 0⟩

def one : Vec := ⟨1, 1⟩

instance : Add Vec := ⟨fun a b => ⟨a.x + b.x, a.y + b.y⟩⟩
instance : Sub Vec := ⟨fun a b => ⟨a.x - b.x, a.y - b.y⟩⟩

instance : Mul Vec := ⟨fun a b => ⟨a.x * b.x, a.y * b.y⟩⟩

@[simp] theorem add_x (a b : Vec) : (a + b).x = a.x + b.x := rfl
@[simp] theorem add_y (a b : Vec) : (a + b).y = a.y + b.y := rfl
@[simp] theorem sub_x (a b : Vec) : (a - b).x = a.x - b.x := rfl
@[simp] theorem sub_y (a b : Vec) : (a - b).y = a.y - b.y := rfl
@[simp] theorem mul_x (a b : Vec) : (a * b).x = a.x * b.x := rfl
@[simp] theorem mul_y (a b : Vec) : (a * b).y = a.y * b.y := rfl

/-- Both components divided by `n`, rounding toward zero. -/
def divide (a : Vec) (n : Int32) : Vec := ⟨a.x / n, a.y / n⟩

def scale (a : Vec) (n : Int32) : Vec := ⟨a.x * n, a.y * n⟩

def min (a b : Vec) : Vec :=
  ⟨if a.x ≤ b.x then a.x else b.x, if a.y ≤ b.y then a.y else b.y⟩

def max (a b : Vec) : Vec :=
  ⟨if a.x ≤ b.x then b.x else a.x, if a.y ≤ b.y then b.y else a.y⟩

def largest (a : Vec) : Int32 := if a.x ≤ a.y then a.y else a.x

/-- The absolute value of both components; like all arithmetic here it wraps,
so that `-2 ^ 31` stays as it is. -/
def abs (a : Vec) : Vec :=
  ⟨if a.x < 0 then -a.x else a.x, if a.y < 0 then -a.y else a.y⟩

/-- The Chebyshev distance from the origin: the larger absolute value. -/
def chebyshev (a : Vec) : UInt32 := a.abs.largest.toUInt32

/-- Whether `0 ≤ p < size` in both components. -/
def inBounds (p size : Vec) : Bool :=
  0 ≤ p.x && 0 ≤ p.y && p.x < size.x && p.y < size.y

/-- The integers from `a` to `b`, both included. -/
def range (a b : Int32) : List Int32 :=
  (List.range (b.toInt - a.toInt + 1).toNat).map fun (n : Nat) => a + Int32.ofNat n

/-- The positions of the inclusive rectangle from `low` to `high`, row by row. -/
def rectangle (low high : Vec) : List Vec :=
  (range low.y high.y).flatMap fun y => (range low.x high.x).map fun x => ⟨x, y⟩

/-- How many columns and rows lie inside `size`; a negative side has none. -/
def columns (size : Vec) : Nat := size.x.toNatClampNeg

@[inherit_doc columns]
def rows (size : Vec) : Nat := size.y.toNatClampNeg

/-- The number of positions inside `size`. -/
def area (size : Vec) : Nat := size.columns * size.rows

/-- The number of positions inside `size` as it is worked out on words: it wraps. -/
def areaWord (size : Vec) : Int32 := size.x * size.y

/-- The position in a column and a row. -/
def ofNat (column row : Nat) : Vec := ⟨Int32.ofNat column, Int32.ofNat row⟩

/-- The positions inside `size`, row by row. -/
def positions (size : Vec) : List Vec :=
  (List.range size.rows).flatMap fun row =>
    (List.range size.columns).map fun column => ofNat column row

/-- The place of a position in the list of the positions inside `size`. -/
def place (p size : Vec) : Nat :=
  p.y.toNatClampNeg * size.columns + p.x.toNatClampNeg

/-- The place of a position as it is worked out on words: it wraps. -/
def placeWord (p size : Vec) : Int32 := p.y * size.x + p.x

/-- The positions of a list that has one entry for each position inside `size`. -/
def ofPlace (size : Vec) (n : Nat) : Vec := ofNat (n % size.columns) (n / size.columns)

/-- How a vector is shown to the reader of a message. -/
def text (a : Vec) : String := s!"[{a.x}, {a.y}]"

end Vec

end FallingSand
