import FallingSand.Random.Draw
import FallingSand.World.Rule

/-!
# Orientations

A rule with symmetries is tried as it is written or mirrored on some of its
axes. An orientation says on which; it maps offsets, and it maps the cells of
the mirrored box to the coordinates of the patterns.
-/

namespace FallingSand

open FallingSand.Random (WordSource chance)

/-- The axes on which a rule is mirrored. -/
structure Orientation where
  flipX : Bool
  flipY : Bool
  deriving DecidableEq, Repr, Inhabited

namespace Orientation

/-- As it is written. -/
def identity : Orientation := ⟨false, false⟩

/-- The sign of a coordinate on an axis. -/
def sign (flip : Bool) : Int32 := if flip then -1 else 1

/-- Where an offset of the rule leads to. -/
def apply (o : Orientation) (offset : Vec) : Vec := offset * ⟨sign o.flipX, sign o.flipY⟩

/-- The coordinate of the anchor in the mirrored box. -/
def anchor (o : Orientation) (rule : Rule) : Vec :=
  let last := rule.size - Vec.one - rule.anchor
  ⟨if o.flipX then last.x else rule.anchor.x, if o.flipY then last.y else rule.anchor.y⟩

/-- The upper left position of the box of a rule that is tried at a target. -/
def boxOrigin (o : Orientation) (rule : Rule) (target : Vec) : Vec := target - o.anchor rule

/-- The coordinate of the patterns for a column and a row of the mirrored box. -/
def patternCoordinate (o : Orientation) (rule : Rule) (column row : Nat) : Nat × Nat :=
  (if o.flipX then rule.width.toNat - 1 - column else column,
    if o.flipY then rule.height.toNat - 1 - row else row)

/-- Every cell of the box of a rule that is tried at a target: its position, and
its coordinate in the patterns. -/
def box (o : Orientation) (rule : Rule) (target : Vec) : List (Vec × Nat × Nat) :=
  rule.coordinates.map fun (column, row) =>
    (o.boxOrigin rule target + Vec.ofNat column row, o.patternCoordinate rule column row)

/-- A coin for an axis that a rule may be mirrored on. -/
def coin {ρ : Type} [WordSource ρ] (allowed : Bool) : StateM ρ Bool :=
  if allowed then chance 0.5 else pure false

/-- An orientation that the symmetries allow, each as likely as the others. -/
def random {ρ : Type} [WordSource ρ] (symmetry : Symmetry) : StateM ρ Orientation := do
  let flipX ← coin symmetry.x
  let flipY ← coin symmetry.y
  return ⟨flipX, flipY⟩

end Orientation

end FallingSand
