import FallingSand.Config.Basic
import FallingSand.Toml.Document

/-!
# Configurations from files

A file gives settings by name at its top level. Names that are no settings are
left alone, whatever they hold. What the file does not give keeps its default.
-/

namespace FallingSand.Config

/-- The number of a setting, if it is given. -/
def setting? (entries : Toml.Entries) (name : String) (limit : Nat) :
    Except Error (Option Nat) :=
  match entries.get? name with
  | none => .ok none
  | some (.integer n) => if 0 ≤ n && n ≤ limit then .ok (some n.toNat) else .error .malformed
  | some _ => .error .malformed

/-- The configuration of a file, whether it has a flaw or not. -/
def readFile (text : List Char) : Except Error Config := do
  let base : Config := {}
  match Toml.read? text with
  | none => throw .malformed
  | some entries =>
    let word32 (name : String) (otherwise : UInt32) : Except Error UInt32 :=
      return ((← setting? entries name (UInt32.size - 1)).map UInt32.ofNat).getD otherwise
    let word64 (name : String) : Except Error (Option UInt64) :=
      return (← setting? entries name (UInt64.size - 1)).map UInt64.ofNat
    let width ← word32 "width" base.width
    let height ← word32 "height" base.height
    let tileSize ← word32 "tile_size" base.tileSize
    let workers ← word64 "workers"
    let delay ← word64 "update_delay_nanos"
    let seed ← word64 "seed"
    return { width, height, tileSize, workers := workers.getD base.workers,
             delay := delay.getD base.delay, seed := seed.or base.seed }

def ofFile (text : List Char) : Except Error Config := do
  (← readFile text).validate.mapError .invalid

/-- The configuration of a file that is given in bytes, if it could be read. -/
def ofBytes (bytes : Except Files.Failure ByteArray) : Except Error Config := do
  ofFile (← (Files.decode bytes).mapError .unreadable).toList

end FallingSand.Config
