import FallingSand.Simulation.Basic

/-!
# Placement

Material is placed with a square brush: the empty cells under it become cells of
the selected type. The constants `size` and `dragCD` of the type say how large
the brush is and how long to wait between two strokes.
-/

namespace FallingSand

open FallingSand.Engine (Action)
open FallingSand.Random (WordSource)

namespace AtomType

/-- The side of the brush for a type. -/
def brushSize (atom : AtomType) : Int32 :=
  match atom.constants.get? "size" with
  | some size => max size.toInt32 1
  | none => 5

/-- How many ticks to wait between two strokes with a type. -/
def cooldown (atom : AtomType) : UInt32 :=
  match atom.constants.get? "dragCD" with
  | some ticks => ticks.toUInt32
  | none => 5

/-- The corners of a brush around a position. -/
def brush (atom : AtomType) (p : Vec) : Vec × Vec :=
  let low := p - Vec.splat (atom.brushSize / 2)
  (low, low + Vec.splat (atom.brushSize - 1))

end AtomType

/-- Places a type around a position and counts the cells. -/
def Simulation.place {ρ : Type} [WordSource ρ] (p : Vec) (id : AtomId) :
    Action Simulation ρ Nat := do
  let (low, high) := ((← get).board.world.atom id).brush p
  retypeRect low high id fun world cell => cell.atom == world.empty

/-- The selection of a type. -/
structure Selection where
  atom : AtomId
  deriving DecidableEq, Repr

namespace Selection

/-- The first selection is the empty type. -/
def initial (world : World) : Selection := ⟨world.empty⟩

/-- Selects the type with a key, if there is one. -/
def pressKey (selection : Selection) (world : World) (key : Char) :
    Option AtomId × Selection :=
  match world.atomByKey? key with
  | some atom => (some atom.id, ⟨atom.id⟩)
  | none => (none, selection)

/-- How many ticks to wait between two strokes. -/
def cooldown (selection : Selection) (world : World) : UInt32 :=
  (world.atom selection.atom).cooldown

/-- Selects the type that a text means: the one with this key, or with this name,
or else with this alias. -/
def choose (selection : Selection) (world : World) (material : String) :
    Option AtomId × Selection :=
  let named := ((world.atomByName? material).or (world.atomByAlias? material)).map (·.id)
  let byKey := match material.toList with
    | [key] => (selection.pressKey world key).1
    | _ => none
  match byKey.or named with
  | some id => (some id, ⟨id⟩)
  | none => (none, selection)

end Selection

end FallingSand
