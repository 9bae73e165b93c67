import FallingSand.Board.Basic
import FallingSand.Proofs.Script.Shape

/-!
# Typed cells

A cell is typed if its number is that of a type and it has all properties that the
type gives to new cells. It is complete if it also has those that the type works out
for new cells. A world is closed if every property that some expression reads has a
default or is declared by every type. In a closed world a typed cell has a value for
whatever is read.
-/

namespace FallingSand

namespace World

variable (world : World)

/-- Whether a property has a default, or is declared by every type. -/
def Declares (name : String) : Prop :=
  (world.defaults.get? name).isSome ∨ ∀ atom ∈ world.atoms,
    (atom.properties.get? name).isSome ∨ (atom.constants.get? name).isSome

instance (name : String) : Decidable (world.Declares name) :=
  inferInstanceAs (Decidable (_ ∨ _))

end World

/-- The expressions of a type: of its rules, its new cells and its colors. -/
def AtomType.exprs (atom : AtomType) : List Expr :=
  atom.allRules.flatMap Rule.exprs ++ atom.init.map (·.2) ++
    atom.colorRules.flatMap fun rule => [rule.condition, rule.r, rule.g, rule.b]

namespace World

variable (world : World)

/-- Whether all properties are declared that some expression reads. -/
def Closed : Prop :=
  ∀ atom ∈ world.atoms, ∀ e ∈ atom.exprs, ∀ slot ∈ e.slots, world.Declares slot.name

instance : Decidable world.Closed :=
  inferInstanceAs (Decidable (∀ atom ∈ world.atoms, _))

/-- Whether every type has the number of its place. -/
def Numbered : Prop :=
  ∀ n atom, world.atoms[n]? = some atom → atom.id = UInt16.ofNat n

end World

/-- What compiling makes sure of, as long as numbers do not run out. -/
structure World.Regular (world : World) : Prop where
  shaped : ∀ id, (world.atom id).Shaped
  anchored : ∀ id, ∀ rule ∈ (world.atom id).allRules, rule.anchor.inBounds rule.size = true
  numbered : world.Numbered
  few : world.atoms.size ≤ 65536

theorem Script.regular_of_compile {source : List Char} {compiled : Script.Compiled}
    (h : Script.compile source = .ok compiled) (few : compiled.world.atoms.size ≤ 65536) :
    compiled.world.Regular where
  shaped id := (Script.shaped_atom h id).1
  anchored id rule member := ((Script.shaped_atom h id).2 rule member).anchored
  numbered _ _ found := (Script.shaped_of_compile h found).id
  few := few

/-- A cell of the same type as another that has all of its properties. -/
structure Cell.Extends (cell base : Cell) : Prop where
  atom : cell.atom = base.atom
  properties : ∀ name, (base.properties.get? name).isSome → (cell.properties.get? name).isSome

/-- A cell of a type, with the properties that the type declares for its cells. -/
structure Cell.Typed (world : World) (cell : Cell) : Prop where
  known : (world.atom? cell.atom).isSome
  properties : ∀ name, ((world.atom cell.atom).properties.get? name).isSome →
    (cell.properties.get? name).isSome

/-- A typed cell with the properties that its type works out for new cells. -/
structure Cell.Complete (world : World) (cell : Cell) : Prop extends cell.Typed world where
  initial : ∀ entry ∈ (world.atom cell.atom).init, (cell.properties.get? entry.1).isSome

variable {world : World}

/-- While numbers do not run out, a type is found by its number. -/
theorem World.Numbered.atom?_id (numbered : world.Numbered) (few : world.atoms.size ≤ 65536)
    (id : AtomId) : world.atom? (world.atom id).id = some (world.atom id) := by
  obtain ⟨n, bound, same⟩ :=
    Array.mem_iff_getElem.mp (Array.mem_toList_iff.mp (world.atom_mem id))
  have found : world.atoms[n]? = some (world.atom id) := by
    rw [Array.getElem?_eq_getElem bound, same]
  have number : (UInt16.ofNat n).toNat = n := by
    rw [UInt16.toNat_ofNat']
    omega
  rw [World.atom?, numbered n _ found, number]
  exact found

theorem World.atom_eq_of_atom? {id : AtomId} {atom : AtomType} (h : world.atom? id = some atom) :
    world.atom id = atom := by
  rw [World.atom, h]
  rfl

/-- A new cell of a type is of that type. -/
theorem World.Numbered.atom_newCell (numbered : world.Numbered) (few : world.atoms.size ≤ 65536)
    (id : AtomId) : world.atom (world.atom id).newCell.atom = world.atom id :=
  World.atom_eq_of_atom? (numbered.atom?_id few id)

/-! ## Cells that gain properties -/

theorem Cell.get?_set (cell : Cell) (name other : String) (x : Float32) :
    (cell.set name x).properties.get? other =
      if name = other then some x else cell.properties.get? other :=
  Table.get?_insert cell.properties name other x

namespace Cell.Extends

theorem refl (cell : Cell) : cell.Extends cell := ⟨rfl, fun _ h => h⟩

theorem trans {cell middle base : Cell} (upper : cell.Extends middle)
    (lower : middle.Extends base) : cell.Extends base :=
  ⟨upper.atom.trans lower.atom, fun name h => upper.properties name (lower.properties name h)⟩

theorem set (cell : Cell) (name : String) (x : Float32) : (cell.set name x).Extends cell := by
  refine ⟨rfl, ?_⟩
  intro other present
  rw [Cell.get?_set]
  split
  · rfl
  · exact present

end Cell.Extends

theorem Cell.Typed.extend {cell base : Cell} (typed : base.Typed world)
    (extension : cell.Extends base) : cell.Typed world := by
  refine ⟨?_, ?_⟩
  · rw [extension.atom]
    exact typed.known
  · intro name declared
    rw [extension.atom] at declared
    exact extension.properties name (typed.properties name declared)

theorem Cell.Complete.set {cell : Cell} (complete : cell.Complete world) (name : String)
    (x : Float32) : (cell.set name x).Complete world :=
  ⟨complete.toTyped.extend (.set cell name x), fun entry member =>
    (Cell.Extends.set cell name x).properties entry.1 (complete.initial entry member)⟩

namespace Cell.Typed

theorem new (numbered : world.Numbered) (few : world.atoms.size ≤ 65536) (id : AtomId) :
    (world.atom id).newCell.Typed world := by
  have found := numbered.atom?_id few id
  refine ⟨?_, ?_⟩
  · show (world.atom? (world.atom id).id).isSome
    rw [found]
    rfl
  · intro name declared
    rw [numbered.atom_newCell few id] at declared
    exact declared

theorem set {cell : Cell} (typed : cell.Typed world) (name : String) (x : Float32) :
    (cell.set name x).Typed world :=
  typed.extend (.set cell name x)

/-- A typed cell has a value for every declared property. -/
theorem resolve?_isSome {cell : Cell} (typed : cell.Typed world) {name : String}
    (declared : world.Declares name) :
    (world.resolve? cell.properties cell.atom name).isSome := by
  unfold World.resolve?
  simp only [Option.isSome_or, Bool.or_eq_true]
  rcases declared with defaulted | everywhere
  · exact .inr (.inr defaulted)
  obtain ⟨atom, found⟩ := Option.isSome_iff_exists.mp typed.known
  have same := World.atom_eq_of_atom? found
  have member : atom ∈ world.atoms := by
    rw [← same]
    exact Array.mem_toList_iff.mp (world.atom_mem cell.atom)
  rcases everywhere atom member with property | constant
  · left
    refine typed.properties name ?_
    rw [same]
    exact property
  · right
    left
    rw [found]
    exact constant

end Cell.Typed

end FallingSand
