/-!
# Sources of random words

Randomness is a value that is used up: drawing a word gives the word and the
source that is left. Everything random in the library is a function of such a
source, so two runs from equal sources are equal.

Words come in two lengths, and how a source makes the one from the other is its
own affair. `Counted` wraps a source and counts both kinds of draws.
-/

namespace FallingSand.Random

/-- A source of 32-bit and 64-bit words. -/
class WordSource (ρ : Type) where
  next32 : ρ → UInt32 × ρ
  next64 : ρ → UInt64 × ρ

/-- The high half of a word. -/
def highHalf (word : UInt64) : UInt32 := (word >>> 32).toUInt32

/-- A source that counts what is drawn from it. -/
structure Counted (ρ : Type) where
  source : ρ
  words32 : Nat := 0
  words64 : Nat := 0

instance {ρ : Type} [WordSource ρ] : WordSource (Counted ρ) where
  next32 c :=
    let (word, source) := WordSource.next32 c.source
    (word, ⟨source, c.words32 + 1, c.words64⟩)
  next64 c :=
    let (word, source) := WordSource.next64 c.source
    (word, ⟨source, c.words32, c.words64 + 1⟩)

/-- A fixed list of words, repeated without end. An empty list gives zeros. -/
structure Cycle where
  words : Array UInt64
  position : Nat := 0

namespace Cycle

def next (c : Cycle) : UInt64 × Cycle :=
  (c.words.getD c.position 0,
    { c with position := if c.position + 1 < c.words.size then c.position + 1 else 0 })

instance : WordSource Cycle where
  next32 c := let (word, c) := c.next; (highHalf word, c)
  next64 := next

end Cycle

/-- The SplitMix generator: a counter with a large odd step, and a mixing
function that spreads its bits. -/
structure SplitMix where
  state : UInt64

namespace SplitMix

/-- Spreads the bits of a counter over the whole word. -/
def mix (z : UInt64) : UInt64 :=
  let z := (z ^^^ (z >>> 30)) * 0xBF58476D1CE4E5B9
  let z := (z ^^^ (z >>> 27)) * 0x94D049BB133111EB
  z ^^^ (z >>> 31)

def next (g : SplitMix) : UInt64 × SplitMix :=
  let state := g.state + 0x9E3779B97F4A7C15
  (mix state, ⟨state⟩)

instance : WordSource SplitMix where
  next32 g := let (word, g) := g.next; (highHalf word, g)
  next64 := next

end SplitMix

end FallingSand.Random
