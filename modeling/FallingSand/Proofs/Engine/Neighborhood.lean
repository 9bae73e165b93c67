import FallingSand.Proofs.Board.Snapshot
import FallingSand.Proofs.Engine.Locality
import FallingSand.Proofs.Script.Shape

/-!
# Neighborhoods

The reach of a rule bounds what it reads and what it writes. On two grids that agree
as far around the target as the rule reaches, it comes to the same end by the same
draws, they still agree there, and all that is farther away is as it was. No rule can
tell what lies beyond its reach, and none leaves a trace there.
-/

namespace FallingSand

open FallingSand.Random (WordSource)

/-- Snapshots that have become of `s` and `t`: they agree near a target and are untouched
elsewhere. -/
structure Neighborhood (s t : Snapshot) (target : Vec) (distance : Nat) (s' t' : Snapshot) :
    Prop where
  full : s'.Full ∧ t'.Full
  size : s'.size = s.size ∧ t'.size = s.size
  near : ∀ p, Vec.Near target p distance → s'.cell? p = t'.cell? p
  far : ∀ p, ¬Vec.Near target p distance → s'.cell? p = s.cell? p ∧ t'.cell? p = t.cell? p

namespace Neighborhood

variable {s t s' t' : Snapshot} {target p : Vec} {distance : Nat}

theorem start (full : s.Full) (full' : t.Full) (size : t.size = s.size)
    (agree : ∀ p, p.inBounds s.size = true → Vec.Near target p distance →
      s.cell? p = t.cell? p) : Neighborhood s t target distance s t := by
  refine ⟨⟨full, full'⟩, ⟨rfl, size⟩, ?_, fun _ _ => ⟨rfl, rfl⟩⟩
  intro p near
  cases inside : p.inBounds s.size with
  | true => exact agree p inside near
  | false => rw [Snapshot.cell?_eq_none inside, Snapshot.cell?_eq_none (size.symm ▸ inside)]

theorem write (around : Neighborhood s t target distance s' t')
    (inside : p.inBounds s.size = true) (near : Vec.Near target p distance) (cell : Cell) :
    Neighborhood s t target distance (s'.write p cell) (t'.write p cell) := by
  obtain ⟨⟨full, full'⟩, ⟨size, size'⟩, agree, untouched⟩ := around
  have left := Snapshot.cell?_write full (size.symm ▸ inside) cell
  have right := Snapshot.cell?_write full' (size'.symm ▸ inside) cell
  refine ⟨⟨Snapshot.full_write full p cell, Snapshot.full_write full' p cell⟩,
    ⟨(s'.size_write p cell).trans size, (t'.size_write p cell).trans size'⟩, ?_, ?_⟩
  · intro q hq
    rw [left, right, agree q hq]
  · intro q hq
    have elsewhere : q ≠ p := fun same => hq (same ▸ near)
    rw [left, right, if_neg elsewhere, if_neg elsewhere]
    exact untouched q hq

end Neighborhood

namespace Engine

variable {world : World} {ρ : Type}

/-- Two snapshots that agree near a target meet there, and outside the grid. -/
def neighborLink (selfRead : ∀ id, ∀ entry ∈ (world.atom id).init, entry.2.ReadsSelf)
    (s t : Snapshot) (target : Vec) (distance : Nat) : Link world Snapshot Snapshot where
  boards := Neighborhood s t target distance
  faults e s' f t' := e = f ∧ Neighborhood s t target distance s' t'
  good _ := True
  allowed _ := True
  good_set _ _ _ := trivial
  good_new _ := trivial
  initial id entry member slot hslot :=
    ⟨selfRead id entry member slot hslot, fun _ _ _ _ => trivial⟩
  allowed_formula _ _ := trivial
  allowed_direction := trivial
  size := s.size
  meets p q := p = q ∧ (p.inBounds s.size = true → Vec.Near target p distance)
  size_left around := around.size.1
  size_right around := around.size.2
  inBounds_eq := by
    rintro p _ ⟨rfl, -⟩
    rfl
  cells := by
    rintro s' t' p _ around ⟨rfl, near⟩ inside
    obtain ⟨cell, found⟩ := around.full.1.exists_cell (around.size.1.symm ▸ inside)
    exact ⟨cell, found, (around.near p (near inside)).symm.trans found, trivial⟩
  writes := by
    rintro s' t' p _ cell around ⟨rfl, near⟩ inside -
    exact around.write inside (near inside) cell
  faults_of_allowed _ around := ⟨rfl, around⟩

end Engine

open Engine

/-- What a rule does at a target is settled by the cells within its reach, and it changes no
others. -/
theorem applyRule_local {source : List Char} {compiled : Script.Compiled}
    (h : Script.compile source = .ok compiled) {atom : AtomType}
    (member : atom ∈ compiled.world.atoms) {rule : Rule} (among : rule ∈ atom.allRules)
    (owner : AtomType) (o : Orientation) {s t : Snapshot} (full : s.Full) (full' : t.Full)
    (size : t.size = s.size) {target : Vec} (inside : target.inBounds s.size = true)
    (agree : ∀ p, p.inBounds s.size = true → Vec.Near target p rule.reach.toNat →
      s.cell? p = t.cell? p) {ρ : Type} [WordSource ρ] (words : ρ) :
    let left := (applyRule compiled.world owner rule target o).run.run
      (⟨s, words⟩ : State Snapshot ρ)
    let right := (applyRule compiled.world owner rule target o).run.run
      (⟨t, words⟩ : State Snapshot ρ)
    left.1 = right.1 ∧ left.2.source = right.2.source ∧
      (left.2.board.size = s.size ∧ right.2.board.size = s.size) ∧
      (∀ p, Vec.Near target p rule.reach.toNat →
        left.2.board.cell? p = right.2.board.cell? p) ∧
      ∀ p, ¬Vec.Near target p rule.reach.toNat →
        left.2.board.cell? p = s.cell? p ∧ right.2.board.cell? p = t.cell? p := by
  intro left right
  have selfRead (id : AtomId) : ∀ entry ∈ (compiled.world.atom id).init, entry.2.ReadsSelf :=
    (Script.shaped_atom h id).1.init
  have shaped := Script.shapedClosure.rules_of_compile h member rule among
  let L := neighborLink selfRead s t target rule.reach.toNat
  have meets : L.MeetsNear target rule.reach.toNat := fun p near =>
    ⟨rfl, fun there => (near there).2⟩
  have ends : L.Ends Eq left right :=
    meets.coupled_applyRule inside (Link.retypes L) shaped.anchored le_rfl
      (fun _ _ _ _ _ _ _ _ => trivial) owner s t words (.start full full' size agree)
  revert ends
  generalize left = a
  generalize right = b
  intro ends
  cases ends with
  | result same around =>
    exact ⟨congrArg Except.ok same, rfl, around.size, around.near, around.far⟩
  | fault faults =>
    obtain ⟨same, around⟩ := faults
    exact ⟨congrArg Except.error same, rfl, around.size, around.near, around.far⟩

/-- The pile with a third grain, two columns from the first one. -/
def Snapshot.pileBeside : Snapshot := ⟨⟨3, 2⟩, #[⟨1, {}⟩, {}, ⟨1, {}⟩, {}, ⟨1, {}⟩, {}]⟩

theorem sunk_applyRule_local : Snapshot.pile ≠ Snapshot.pileBeside ∧
    ∃ rule ∈ (Script.sunk.world.atom 1).allRules, rule.reach = 1 ∧
      let left := (applyRule Script.sunk.world (Script.sunk.world.atom 1) rule ⟨0, 0⟩
        .identity).run.run (⟨Snapshot.pile, ⟨7⟩⟩ : State Snapshot Random.SplitMix)
      let right := (applyRule Script.sunk.world (Script.sunk.world.atom 1) rule ⟨0, 0⟩
        .identity).run.run (⟨Snapshot.pileBeside, ⟨7⟩⟩ : State Snapshot Random.SplitMix)
      left.1 = right.1 ∧ left.2.board.cell? ⟨0, 1⟩ = right.2.board.cell? ⟨0, 1⟩ ∧
        right.2.board.cell? ⟨2, 0⟩ = Snapshot.pileBeside.cell? ⟨2, 0⟩ := by
  obtain ⟨rule, among⟩ := Script.exists_sunk_rule
  have reach : rule.reach = 1 := by
    have all : ∀ rule ∈ (Script.sunk.world.atom 1).allRules, rule.reach = 1 := by decide +kernel
    exact all rule among
  have agree : ∀ p, p.inBounds Snapshot.pile.size = true →
      Vec.Near ⟨0, 0⟩ p rule.reach.toNat → Snapshot.pile.cell? p = Snapshot.pileBeside.cell? p := by
    rintro p inside ⟨near, -⟩
    rw [reach] at near
    have column : p.x.toInt ≠ 2 := by
      intro far
      rw [far] at near
      exact absurd near (by decide)
    have all : ∀ q ∈ Snapshot.pile.size.positions, q.x.toInt ≠ 2 →
        Snapshot.pile.cell? q = Snapshot.pileBeside.cell? q := by decide +kernel
    exact all p (Vec.mem_positions.mpr inside) column
  have inside : (⟨0, 0⟩ : Vec).inBounds Snapshot.pile.size = true := by decide
  obtain ⟨same, -, -, near, far⟩ := applyRule_local Script.compile_sinking Script.sunk_member among
    (Script.sunk.world.atom 1) .identity (s := Snapshot.pile) (t := Snapshot.pileBeside) rfl rfl rfl
    inside agree (⟨7⟩ : Random.SplitMix)
  refine ⟨by decide, rule, among, reach, same, ?_, ?_⟩
  · exact near ⟨0, 1⟩ (by rw [reach]; unfold Vec.Near; decide)
  · exact (far ⟨2, 0⟩ (by rw [reach]; unfold Vec.Near; decide)).2

end FallingSand
