import FallingSand.Random.Source

/-!
# Drawing values

How words become coin flips, numbers in a range and permutations. A number
below `count` is the high part of a word times `count`; where the low part
shows that the result may be one too small, a second word decides. Shuffling
exchanges each position with one at or before it, and takes the choices of
several positions from one number by division.
-/

namespace FallingSand.Random

variable {ρ : Type} [WordSource ρ]

def word32 : StateM ρ UInt32 := WordSource.next32

def word64 : StateM ρ UInt64 := WordSource.next64

/-- A number below `count`, from words below `modulus`. -/
def below (modulus : Nat) (word : StateM ρ Nat) (count : Nat) : StateM ρ Nat := do
  let product := (← word) * count
  let low := product % modulus
  if modulus - count < low then
    let carry := (← word) * count / modulus
    return product / modulus + if modulus ≤ low + carry then 1 else 0
  else
    return product / modulus

/-- A number below `count`, which is at most `2 ^ 32`, from 32-bit words. -/
def below32 (count : Nat) : StateM ρ Nat :=
  below UInt32.size (return (← word32).toNat) count

/-- A number below `count`, which is at most `2 ^ 64`, from 64-bit words. -/
def below64 (count : Nat) : StateM ρ Nat :=
  below UInt64.size (return (← word64).toNat) count

/-- An index below `count`, from the shortest words that can hold `count`. -/
def index (count : Nat) : StateM ρ Nat :=
  if count < UInt32.size then below32 count else below64 count

/-- An integer from `low` to `high`, both included. When that is every integer,
it is the one with the bits of a word. -/
def between (low high : Int32) : StateM ρ Int32 := do
  let count := (high.toInt - low.toInt + 1).toNat
  if count = UInt32.size then return (← word32).toInt32
  else return low + Int32.ofNat (← below32 count)

/-- True with probability `p`; certainty takes no draw. -/
def chance (p : Float) : StateM ρ Bool := do
  if p == 1.0 then return true
  else return (← word64) < (p * 18446744073709551616.0).toUInt64

/-- The longest product `start · (start + 1) · …` below `2 ^ 32`, given the part
of it found so far, and how many factors it has. No more than `32` factors can
be added. -/
def longestProduct : Nat → Nat → Nat → Nat → Nat × Nat
  | 0, product, _, factors => (product, factors)
  | fuel + 1, product, next, factors =>
    if product * next < UInt32.size then
      longestProduct fuel (product * next) (next + 1) (factors + 1)
    else (product, factors)

/-- The state of a sequence of choices among `1`, `2`, `3`, … things: how many
choices are made, and a number that holds the next `left` of them. -/
structure Choices where
  made : Nat := 0
  chunk : Nat := 0
  left : Nat := 1

/-- The next choice, of one among `made + 1`. -/
def Choices.next (c : Choices) : StateM ρ (Nat × Choices) := do
  let count := c.made + 1
  let (chunk, left) ←
    if c.left = 0 then do
      let (product, factors) := longestProduct 32 count (count + 1) 1
      pure (← below32 product, factors - 1)
    else pure (c.chunk, c.left - 1)
  if left = 0 then return (chunk, ⟨count, chunk, left⟩)
  else return (chunk % count, ⟨count, chunk / count, left⟩)

/-- Exchanges position `done` and each later one with a chosen position at or
before it, for `steps` positions. -/
def shuffleFrom {α : Type} : Nat → Nat → Choices → Array α → StateM ρ (Array α)
  | 0, _, _, items => pure items
  | steps + 1, done, choices, items => do
    let (choice, choices) ← choices.next
    shuffleFrom steps (done + 1) choices (items.swapIfInBounds done choice)

def shuffle {α : Type} (items : Array α) : StateM ρ (Array α) :=
  if items.size ≤ 1 then pure items else shuffleFrom items.size 0 {} items

/-- The numbers below `n` in a random order. -/
def order (n : Nat) : StateM ρ (List Nat) :=
  return (← shuffle (Array.range n)).toList

end FallingSand.Random
