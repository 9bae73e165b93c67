import FallingSand.Config.Basic
import FallingSand.Number.Decimal
import FallingSand.Text.Blank

/-!
# Configurations from the environment

Each setting may be given by a variable, as a number with blanks around it. What
no variable gives keeps its default.
-/

namespace FallingSand.Config

/-- The values of the variables that are set. -/
abbrev Environment := String → Option String

/-- The number that a variable holds, if it is set. -/
def number? (env : Environment) (name : String) (limit : Nat) : Except Flaw (Option Nat) :=
  match env name with
  | none => .ok none
  | some value =>
    match Number.readNatural? limit (Text.trim value.toList) with
    | some n => .ok (some n)
    | none => .error (.badValue name value)

/-- The number that a variable holds in 32 bits, or else a default. -/
def word32 (env : Environment) (name : String) (otherwise : UInt32) : Except Flaw UInt32 :=
  return ((← number? env name (UInt32.size - 1)).map UInt32.ofNat).getD otherwise

/-- The number that a variable holds in 64 bits, or else a default. -/
def word64 (env : Environment) (name : String) (otherwise : UInt64) : Except Flaw UInt64 :=
  return ((← number? env name (UInt64.size - 1)).map UInt64.ofNat).getD otherwise

/-- The configuration of an environment, whether it has a flaw or not. -/
def readEnvironment (env : Environment) : Except Flaw Config := do
  let base : Config := {}
  let seed ← number? env "SANDLANG_SEED" (UInt64.size - 1)
  let width ← word32 env "SANDLANG_WIDTH" base.width
  let height ← word32 env "SANDLANG_HEIGHT" base.height
  let tileSize ← word32 env "SANDLANG_TILE_SIZE" base.tileSize
  let workers ← word64 env "SANDLANG_WORKERS" base.workers
  let delay ← word64 env "SANDLANG_UPDATE_DELAY_NANOS" base.delay
  return { width, height, tileSize, workers, delay, seed := (seed.map UInt64.ofNat).or base.seed }

def ofEnvironment (env : Environment) : Except Error Config :=
  (do (← readEnvironment env).validate : Except Flaw Config).mapError .invalid

end FallingSand.Config
