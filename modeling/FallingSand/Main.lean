import FallingSand.CommandLine.Session
import FallingSand.Report.Png
import FallingSand.Simulation.Worker

/-!
# The command line

Reads what the arguments name, lets the workers run for as long as the arguments
say, and prints and writes what is left in the end. Everything that is decided
here is decided by the modules below; this one reads, waits and writes.
-/

namespace FallingSand.CommandLine

/-- What went wrong with a file. -/
def failure : IO.Error → Files.Failure
  | .noFileOrDirectory .. => .notFound
  | .inappropriateType _ code details | .permissionDenied _ code details
  | .resourceExhausted _ code details | .invalidArgument _ code details =>
    match code with
    | 20 => .notADirectory
    | 21 => .isADirectory
    | 36 => .nameTooLong
    | code => .other s!"{details} (os error {code})"
  | error => .other (toString error)

/-- The bytes of a file, or why they cannot be had. -/
def readFile (path : String) : IO (Except Files.Failure ByteArray) := do
  try return .ok (← IO.FS.readBinFile path)
  catch error => return .error (failure error)

/-- Writes a file, or says why it cannot be written. -/
def writeFile (content : ByteArray) (path : String) : IO (Option Files.Failure) := do
  try
    IO.FS.writeBinFile path content
    return none
  catch error => return some (failure error)

/-- The environment and the files that some arguments name. -/
def surroundings (texts : List String) : IO Surroundings := do
  let values ← ["SANDLANG_SEED", "SANDLANG_WIDTH", "SANDLANG_HEIGHT", "SANDLANG_TILE_SIZE",
    "SANDLANG_WORKERS", "SANDLANG_UPDATE_DELAY_NANOS"].mapM fun name => do
      return (name, ← IO.getEnv name)
  let paths := match Arguments.read texts with
    | .ok a => a.script :: a.config.toList
    | .error _ => []
  let files ← paths.mapM fun path => return (path, ← readFile path)
  return {
    environment := fun name => (values.lookup name).join
    file := fun path => (files.lookup path).getD (.error .notFound) }

/-- Lets the workers run up to a time, or to the first failure. -/
partial def runUntil (deadline : Nat) (pool : Pool Random.ChaCha) :
    IO (Option Failure × Pool Random.ChaCha) := do
  if deadline ≤ (← IO.monoMsNow) then return (none, pool)
  match pool.round with
  | (some failure, pool) => return (some failure, pool)
  | (none, pool) =>
    let pause := pool.simulation.config.delay / 1000000
    if 0 < pause then IO.sleep pause.toUInt32
    runUntil deadline pool

def conclude (exit : Exit) : IO UInt32 := do
  IO.print exit.output
  IO.eprint exit.complaint
  return exit.code.toUInt32

/-- Lets the workers run on a session and shows what is left. -/
def runSession (a : Arguments) (session : Session) (otherwise : UInt64) : IO UInt32 := do
  let deadline := (← IO.monoMsNow) + (a.seconds * 1000.0).toUInt64.toNat
  let (failure, pool) ← runUntil deadline (session.simulation.pool otherwise)
  match failure with
  | some failure => conclude (.ofError (.action failure.error) "")
  | none =>
    let session := { session with simulation := pool.simulation }
    match ← session.finish a (writeFile .empty) with
    | (exit, none) => conclude exit
    | (exit, some picture) =>
      match ← writeFile picture.image.png picture.path with
      | none => conclude exit
      | some failure => conclude (.ofError (.unwritten picture.path failure) exit.output)

end FallingSand.CommandLine

open FallingSand.CommandLine in
/-- Runs a script as the arguments say. -/
def main (texts : List String) : IO UInt32 := do
  let outside ← surroundings texts
  let otherwise := UInt64.ofNat (← IO.rand 0 (UInt64.size - 1))
  match plan texts outside otherwise with
  | .stop exit => conclude exit
  | .run a session => runSession a session otherwise
