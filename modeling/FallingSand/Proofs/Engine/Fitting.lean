import FallingSand.Proofs.Engine.Boxes
import FallingSand.Proofs.Engine.Orientation
import FallingSand.Proofs.Script.AtomTable
import FallingSand.Proofs.World.Reach

/-!
# What patterns mean

A match pattern is a picture of what is around a cell: each symbol says what has to be
at its offset from the anchor, mirrored as the rule is. `Satisfies` says it for one
symbol, with the sets of a type taken as sets. Matching goes through the mirrored box
from its own corner and stops at the first cell that does not fit, and comes to the
same answer.
-/

namespace FallingSand

namespace World

variable (world : World) (owner : AtomType)

/-- The types that a member of a set stands for: the one with the name, or all that have
the alias. -/
def Denotes : SetMember → AtomId → Prop
  | .atom name, id => ∃ atom ∈ world.atoms, atom.name = name ∧ atom.id = id
  | .aliased name, id => ∃ atom ∈ world.atoms, atom.aliasName = some name ∧ atom.id = id

/-- The types in a set that `owner` defines. -/
def InSet (set : String) (id : AtomId) : Prop :=
  ∃ members, owner.definitions.get? set = some members ∧
    ∃ member ∈ members, world.Denotes member id

def HasAlias (name : String) (id : AtomId) : Prop :=
  ∃ atom, world.atom? id = some atom ∧ atom.aliasName = some name

/-- What a symbol of a pattern asks of a position: of the cell there, or of there being
none. -/
def Satisfies : MatchSymbol → Option Cell → Prop
  | .outside, found => found = none
  | _, none => False
  | .any, some _ => True
  | .inside, some _ => True
  | .empty, some cell => cell.atom = world.empty
  | .nonempty, some cell => cell.atom ≠ world.empty
  | .member set, some cell => world.InSet owner set cell.atom ∨
      owner.definitions.get? set = none ∧ world.HasAlias set cell.atom
  | .notMember set, some cell => ¬world.InSet owner set cell.atom

variable {world owner} {set : String} {id : AtomId}

section

variable (distinct : (world.atoms.toList.map (·.name)).Nodup)

include distinct

theorem memberIs_iff {member : SetMember} :
    world.memberIs member id = true ↔ world.Denotes member id := by
  cases member with
  | atom name =>
    rw [memberIs, beq_iff_eq]
    exact idOfName?_eq_some distinct
  | aliased name =>
    simp only [memberIs, Array.any_eq_true', Bool.and_eq_true, beq_iff_eq]
    rfl

theorem setContains?_eq_true : world.setContains? owner set id = some true ↔
    world.InSet owner set id := by
  simp only [setContains?, Option.map_eq_some_iff, List.any_eq_true, memberIs_iff distinct]
  rfl

theorem isNotMember_iff : world.isNotMember owner set id = true ↔ ¬world.InSet owner set id := by
  rw [← setContains?_eq_true distinct, isNotMember]
  cases world.setContains? owner set id with
  | none => decide
  | some contained => cases contained <;> decide

theorem isMember_iff : world.isMember owner set id = true ↔ world.InSet owner set id ∨
    owner.definitions.get? set = none ∧ world.HasAlias set id := by
  rw [← setContains?_eq_true distinct]
  have defined : world.setContains? owner set id = none ↔ owner.definitions.get? set = none := by
    rw [setContains?, Option.map_eq_none_iff]
  rw [← defined, isMember]
  cases world.setContains? owner set id with
  | some contained => simp
  | none => simp [HasAlias, Option.bind_eq_some_iff]

/-- The engine accepts what satisfies a symbol. -/
theorem accepts_iff {symbol : MatchSymbol} {cell : Cell} :
    Engine.accepts world owner symbol cell.atom = true ↔
      world.Satisfies owner symbol (some cell) := by
  cases symbol with
  | any => simp [Engine.accepts, Satisfies]
  | inside => simp [Engine.accepts, Satisfies]
  | outside => simp [Engine.accepts, Satisfies]
  | empty => simp [Engine.accepts, Satisfies]
  | nonempty => simp [Engine.accepts, Satisfies]
  | notMember set => exact isNotMember_iff distinct
  | member set => exact isMember_iff distinct

end

end World

open Engine

/-- Whether a cell of the box fits is whether it satisfies its symbol. -/
theorem Engine.fitsOn_iff {world : World} (distinct : (world.atoms.toList.map (·.name)).Nodup)
    {owner : AtomType} {rule : Rule} {s : Snapshot} {column row : Nat} {symbol : MatchSymbol}
    (found : rule.matchSymbol? column row = some symbol) (p : Vec) :
    fitsOn world owner rule s (p, column, row) = true ↔
      world.Satisfies owner symbol (s.cell? p) := by
  unfold fitsOn
  rw [found]
  cases s.cell? p with
  | none => cases symbol <;> simp [World.Satisfies]
  | some cell => exact World.accepts_iff distinct

/-- Matching a pattern never fails and changes nothing, and it tells whether every symbol is
satisfied at its offset from the anchor. -/
theorem fitsAt_iff_satisfies {source : List Char} {compiled : Script.Compiled}
    (h : Script.compile source = .ok compiled) {atom : AtomType}
    (member : atom ∈ compiled.world.atoms) {rule : Rule} (among : rule ∈ atom.allRules)
    {pattern : Array MatchSymbol} (written : rule.pattern = some pattern) (owner : AtomType)
    {s : Snapshot} (full : s.Full) (target : Vec) (o : Orientation) {ρ : Type} (words : ρ) :
    ∃ fits, (fitsAt compiled.world owner rule target o).run.run (⟨s, words⟩ : State Snapshot ρ) =
        (.ok fits, ⟨s, words⟩) ∧
      (fits = true ↔ ∀ column row, column < rule.width.toNat → row < rule.height.toNat →
        ∃ symbol, rule.matchSymbol? column row = some symbol ∧
          compiled.world.Satisfies owner symbol
            (s.cell? (target + o.apply (Vec.ofNat column row - rule.anchor)))) := by
  refine ⟨_, exec_fitsAt owner rule full target o words, ?_⟩
  have distinct := Script.names_nodup h
  have whole := (Script.shapedClosure.rules_of_compile h member rule among).pattern pattern written
  rw [List.all_eq_true]
  constructor
  · intro all column row wide high
    have bound : rule.place column row < pattern.size := by
      rw [whole]
      exact Orientation.place_lt_area (Orientation.mem_coordinates.mpr ⟨wide, high⟩)
    have found : rule.matchSymbol? column row = some pattern[rule.place column row] := by
      rw [Rule.matchSymbol?, written]
      exact Array.getElem?_eq_getElem bound
    have fits := all (_, column, row) (Orientation.mem_box.mpr ⟨⟨wide, high⟩, rfl⟩)
    exact ⟨_, found, (fitsOn_iff distinct found _).mp fits⟩
  · rintro satisfied ⟨p, column, row⟩ boxed
    obtain ⟨⟨wide, high⟩, rfl⟩ := Orientation.mem_box.mp boxed
    obtain ⟨symbol, found, here⟩ := satisfied column row wide high
    exact (fitsOn_iff distinct found _).mpr here

theorem sunk_fitsAt_iff_satisfies : ∃ rule ∈ (Script.sunk.world.atom 1).allRules,
    ∃ pattern, rule.pattern = some pattern ∧
    ∃ fits, (fitsAt Script.sunk.world (Script.sunk.world.atom 1) rule ⟨0, 0⟩ .identity).run.run
        (⟨Snapshot.pile, ⟨7⟩⟩ : State Snapshot Random.SplitMix) =
          (.ok fits, ⟨Snapshot.pile, ⟨7⟩⟩) ∧
      (fits = true ↔ ∀ column row, column < rule.width.toNat → row < rule.height.toNat →
        ∃ symbol, rule.matchSymbol? column row = some symbol ∧
          Script.sunk.world.Satisfies (Script.sunk.world.atom 1) symbol
            (Snapshot.pile.cell?
              (⟨0, 0⟩ + Orientation.identity.apply (Vec.ofNat column row - rule.anchor)))) := by
  obtain ⟨rule, among⟩ := Script.exists_sunk_rule
  have patterned : ∀ rule ∈ (Script.sunk.world.atom 1).allRules, rule.pattern.isSome = true := by
    decide +kernel
  obtain ⟨pattern, written⟩ := Option.isSome_iff_exists.mp (patterned rule among)
  exact ⟨rule, among, pattern, written,
    fitsAt_iff_satisfies Script.compile_sinking Script.sunk_member among written
      (Script.sunk.world.atom 1) (s := Snapshot.pile) rfl ⟨0, 0⟩ .identity (⟨7⟩ : Random.SplitMix)⟩

end FallingSand
