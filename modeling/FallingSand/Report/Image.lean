import FallingSand.Simulation.Render

/-!
# Reports as images

An image of a snapshot has a pixel for each cell: its color, or black if it is
not drawn.
-/

namespace FallingSand

open FallingSand.Random (WordSource)

/-- An image, row by row. -/
structure Image where
  width : Nat
  height : Nat
  pixels : List Color
  deriving DecidableEq, Repr

/-- The image of a snapshot. Colors are worked out row by row. -/
def Snapshot.image {ρ : Type} [WordSource ρ] (s : Snapshot) (world : World) :
    ExceptT Expr.EvalError (StateM ρ) Image := do
  let pixels ← s.size.positions.mapM fun p =>
    if s.isDrawn world p then s.color world p else return Color.black
  return ⟨s.size.columns, s.size.rows, pixels⟩

end FallingSand
