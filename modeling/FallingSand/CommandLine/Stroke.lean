import FallingSand.Expr.Basic
import FallingSand.Geometry.Vec
import FallingSand.Number.Decimal

/-!
# Strokes on the command line

`material@x,y` asks for a material to be placed at a position. Blanks around the
three parts do not count. The material ends at the first `@` and the first
coordinate at the first comma after it.
-/

namespace FallingSand.CommandLine

open FallingSand.Expr (ticked)
open FallingSand.Text (splitAtFirst? trim)

/-- A material and where to place it. -/
structure Stroke where
  material : String
  position : Vec
  deriving DecidableEq, Repr

namespace Stroke

inductive Error where
  | noPosition (text : List Char)
  | noComma (text : List Char)
  | badX (text : List Char)
  | badY (text : List Char)
  | noMaterial
  deriving DecidableEq, Repr

def Error.message : Error → String
  | .noPosition text => "expected TYPE@X,Y, got " ++ ticked (String.ofList text)
  | .noComma text => "expected X,Y after @, got " ++ ticked (String.ofList text)
  | .badX text => "invalid x " ++ ticked (String.ofList text)
  | .badY text => "invalid y " ++ ticked (String.ofList text)
  | .noMaterial => "missing material before @"

def read (text : List Char) : Except Error Stroke :=
  match splitAtFirst? ['@'] text with
  | none => .error (.noPosition text)
  | some (material, coordinates) =>
    match splitAtFirst? [','] coordinates with
    | none => .error (.noComma coordinates)
    | some (x, y) =>
      match Number.readInt32? (trim x), Number.readInt32? (trim y) with
      | none, _ => .error (.badX x)
      | _, none => .error (.badY y)
      | some x, some y =>
        if (trim material).isEmpty then .error .noMaterial
        else .ok ⟨String.ofList (trim material), ⟨x, y⟩⟩

end Stroke

end FallingSand.CommandLine
