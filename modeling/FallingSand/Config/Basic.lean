import FallingSand.Files.Reading
import FallingSand.Random.ChaCha

/-!
# Configurations

How large a grid is, how it is cut into tiles, and how many workers run on it at
which pace. A seed makes runs repeatable: every worker has a stream of random
words of its own, and so have the steps before and after the run.
-/

namespace FallingSand

structure Config where
  width : UInt32 := 200
  height : UInt32 := 200
  /-- The side of a tile in cells; no rule may reach farther. -/
  tileSize : UInt32 := 10
  workers : UInt64 := 7
  /-- The pause of a worker after a tick, in nanoseconds. -/
  delay : UInt64 := 200
  seed : Option UInt64 := none
  deriving DecidableEq, Repr, Inhabited

namespace Config

inductive Flaw where
  | noCells
  | noTiles
  | noWorkers
  /-- A variable does not hold a number that fits. -/
  | badValue (name value : String)
  /-- The grid cannot be made, since a number that it is made with does not fit a word. -/
  | overflow
  deriving DecidableEq, Repr

def Flaw.message : Flaw → String
  | .noCells => invalid "grid must be at least 1x1"
  | .noTiles => invalid "tile_size must be positive"
  | .noWorkers => invalid "at least one worker is required"
  | .badValue name value => invalid (name ++ "=" ++ value ++ " is not a valid value")
  | .overflow => "grid overflow"
where
  invalid (what : String) : String := "Invalid configuration: " ++ what

inductive Error where
  | invalid (flaw : Flaw)
  /-- The text of a file is not of its format, or a value is not of its kind. -/
  | malformed
  | unreadable (failure : Files.ReadFailure)
  deriving DecidableEq, Repr

def Error.message : Error → String
  | .invalid flaw => flaw.message
  | .malformed => "Failed to parse config file"
  | .unreadable failure => "Failed to read config file: " ++ failure.message

def flaw? (c : Config) : Option Flaw :=
  if c.width = 0 || c.height = 0 then some .noCells
  else if c.tileSize = 0 then some .noTiles
  else if c.workers = 0 then some .noWorkers
  else none

def validate (c : Config) : Except Flaw Config :=
  match c.flaw? with
  | some flaw => .error flaw
  | none => .ok c

/-- The configuration with a pause, given in seconds and nanoseconds; the longest
one if it is longer. -/
def withDelay (c : Config) (seconds nanos : Nat) : Config :=
  { c with delay := UInt64.ofNat (min (seconds * 1000000000 + nanos) (UInt64.size - 1)) }

/-- The pause in whole seconds and the nanoseconds that are left. -/
def pause (c : Config) : Nat × Nat :=
  (c.delay.toNat / 1000000000, c.delay.toNat % 1000000000)

/-- A stream of random words. Without a seed in the configuration, one that is
taken from elsewhere counts. -/
def stream (c : Config) (otherwise : UInt64) (n : UInt64) : Random.ChaCha :=
  Random.ChaCha.ofStream (c.seed.getD otherwise) n

end Config

end FallingSand
