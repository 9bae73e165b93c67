import FallingSand.Random.Source

/-!
# The ChaCha key stream

The generator behind every seeded run: the ChaCha stream cipher with twelve
rounds, whose key stream is read as one sequence of 32-bit words. A 64-bit word
takes two of them, the low half first. The 256-bit key is spread from a 64-bit
seed by a small congruential generator.
-/

namespace FallingSand.Random

/-- The sixteen words of a ChaCha block. -/
abbrev Block := Vector UInt32 16

def rotateLeft (word amount : UInt32) : UInt32 :=
  (word <<< amount) ||| (word >>> (32 - amount))

/-- Mixes four words of a block. -/
def quarterRound (b : Block) (i j k l : Fin 16) : Block :=
  let a₁ := b[i] + b[j]
  let d₁ := rotateLeft (b[l] ^^^ a₁) 16
  let c₁ := b[k] + d₁
  let b₁ := rotateLeft (b[j] ^^^ c₁) 12
  let a₂ := a₁ + b₁
  let d₂ := rotateLeft (d₁ ^^^ a₂) 8
  let c₂ := c₁ + d₂
  let b₂ := rotateLeft (b₁ ^^^ c₂) 7
  (((b.set i a₂).set j b₂).set k c₂).set l d₂

/-- One round down the columns and one along the diagonals. -/
def doubleRound (b : Block) : Block :=
  let b := quarterRound b 0 4 8 12
  let b := quarterRound b 1 5 9 13
  let b := quarterRound b 2 6 10 14
  let b := quarterRound b 3 7 11 15
  let b := quarterRound b 0 5 10 15
  let b := quarterRound b 1 6 11 12
  let b := quarterRound b 2 7 8 13
  quarterRound b 3 4 9 14

def doubleRounds : Nat → Block → Block
  | 0, b => b
  | n + 1, b => doubleRounds n (doubleRound b)

/-- A 256-bit key. -/
abbrev Key := Vector UInt32 8

/-- What a block is computed from: four constants, the key, the number of the
block and a stream number that is always zero. -/
def initialBlock (key : Key) (counter : UInt64) : Block :=
  #v[0x61707865, 0x3320646E, 0x79622D32, 0x6B206574,
     key[0], key[1], key[2], key[3], key[4], key[5], key[6], key[7],
     counter.toUInt32, highHalf counter, 0, 0]

/-- Block `counter` of the key stream. -/
def keyStreamBlock (key : Key) (counter : UInt64) : Block :=
  let start := initialBlock key counter
  (doubleRounds 6 start).zipWith (· + ·) start

/-- A position in a key stream: the words of the current block that are left
and the number of the next block. -/
structure ChaCha where
  key : Key
  pending : List UInt32 := []
  counter : UInt64 := 0

namespace ChaCha

/-- The next word of the key stream. -/
def next (g : ChaCha) : UInt32 × ChaCha :=
  match g.pending with
  | word :: pending => (word, { g with pending })
  | [] =>
    let block := keyStreamBlock g.key g.counter
    (block[0], { g with pending := block.toList.tail, counter := g.counter + 1 })

instance : WordSource ChaCha where
  next32 := next
  next64 g :=
    let (low, g) := g.next
    let (high, g) := g.next
    ((high.toUInt64 <<< 32) ||| low.toUInt64, g)

/-- One step of the generator that spreads a seed, and the word it gives. -/
def spread (state : UInt64) : UInt32 × UInt64 :=
  let state := state * 6364136223846793005 + 11634580027462260723
  let folded := (((state >>> 18) ^^^ state) >>> 27).toUInt32
  let amount := (state >>> 59).toUInt32
  (rotateLeft folded ((32 - amount) % 32), state)

def spreadWords : Nat → UInt64 → List UInt32
  | 0, _ => []
  | n + 1, state =>
    let (word, state) := spread state
    word :: spreadWords n state

/-- The generator of a seed. -/
def ofSeed (seed : UInt64) : ChaCha :=
  let words := (spreadWords 8 seed).toArray
  { key := Vector.ofFn fun i => words.getD i 0 }

/-- The generator of stream `stream` of a seeded run. Streams of one seed are
the generators of the seeds that follow it. -/
def ofStream (seed stream : UInt64) : ChaCha :=
  ofSeed (seed + stream)

end ChaCha

end FallingSand.Random
