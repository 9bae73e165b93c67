import FallingSand.Proofs.Engine.Boxes
import FallingSand.Proofs.Engine.Locality
import FallingSand.Proofs.Script.Shape

/-!
# Mirrored rules

An orientation means what it says: a rule that is tried in an orientation does to
the mirror image of a grid what the rule as it is written does to the grid. The
box is still gone through row by row, so the cells come in another order, and that
no order can be felt has to come from the laws of filling.
-/

namespace FallingSand

namespace Orientation

/-- The mirror image of a coordinate of an axis. -/
def mirrorAxis (flip : Bool) (side a : Int32) : Int32 := if flip then side - 1 - a else a

/-- The mirror image of a position in a grid. -/
def mirror (o : Orientation) (size p : Vec) : Vec :=
  ⟨mirrorAxis o.flipX size.x p.x, mirrorAxis o.flipY size.y p.y⟩

theorem mirrorAxis_mirrorAxis (flip : Bool) (side a : Int32) :
    mirrorAxis flip side (mirrorAxis flip side a) = a := by
  cases flip with
  | false => rfl
  | true =>
    show side - 1 - (side - 1 - a) = a
    grind

theorem mirror_mirror (o : Orientation) (size p : Vec) :
    o.mirror size (o.mirror size p) = p := by
  ext1
  · exact mirrorAxis_mirrorAxis o.flipX size.x p.x
  · exact mirrorAxis_mirrorAxis o.flipY size.y p.y

theorem mirrorAxis_inside (flip : Bool) {side a : Int32}
    (inside : 0 ≤ a.toInt ∧ a.toInt < side.toInt) :
    0 ≤ (mirrorAxis flip side a).toInt ∧ (mirrorAxis flip side a).toInt < side.toInt := by
  cases flip with
  | false => exact inside
  | true =>
    have := side.toInt_lt
    have last : (side - 1).toInt = side.toInt - 1 := toInt_pred (by omega)
    have image : (side - 1 - a).toInt = side.toInt - 1 - a.toInt := by
      rw [toInt_sub_of_fits] <;> rw [last] <;> omega
    show 0 ≤ (side - 1 - a).toInt ∧ (side - 1 - a).toInt < side.toInt
    omega

theorem inBounds_mirror_of_inBounds (o : Orientation) {size p : Vec}
    (inside : p.inBounds size = true) : (o.mirror size p).inBounds size = true := by
  rw [Vec.inBounds_iff] at inside ⊢
  exact ⟨mirrorAxis_inside o.flipX inside.1, mirrorAxis_inside o.flipY inside.2⟩

theorem inBounds_mirror (o : Orientation) (size p : Vec) :
    (o.mirror size p).inBounds size = p.inBounds size := by
  apply Bool.eq_iff_iff.mpr
  constructor
  · intro inside
    have := o.inBounds_mirror_of_inBounds inside
    rwa [mirror_mirror] at this
  · exact o.inBounds_mirror_of_inBounds

theorem mirrorAxis_add (flip : Bool) (side a d : Int32) :
    mirrorAxis flip side a + d * sign flip = mirrorAxis flip side (a + d * sign false) := by
  cases flip with
  | false => rfl
  | true =>
    show side - 1 - a + d * -1 = side - 1 - (a + d * 1)
    grind

/-- What an offset leads to from the mirror image is the mirror image of what it leads
to. -/
theorem mirror_add_apply (o : Orientation) (size p offset : Vec) :
    o.mirror size p + o.apply offset = o.mirror size (p + identity.apply offset) := by
  ext1
  · exact mirrorAxis_add o.flipX size.x p.x offset.x
  · exact mirrorAxis_add o.flipY size.y p.y offset.y

/-! ## Boxes -/

/-- The image of a cell of a box. -/
def mirrorEntry (o : Orientation) (size : Vec) (entry : Vec × Nat × Nat) : Vec × Nat × Nat :=
  (o.mirror size entry.1, entry.2)

/-- The box at the mirror image has the same cells, mirrored and in another order. -/
theorem box_mirror_perm (o : Orientation) (rule : Rule) (size target : Vec) :
    (o.box rule (o.mirror size target)).Perm
      ((identity.box rule target).map (o.mirrorEntry size)) := by
  have plain := (identity.box_perm rule target).map (o.mirrorEntry size)
  rw [List.map_map] at plain
  refine (o.box_perm rule (o.mirror size target)).trans (List.Perm.trans ?_ plain.symm)
  refine List.Perm.of_eq (List.map_congr_left ?_)
  intro c _
  exact Prod.ext (o.mirror_add_apply size target (Vec.ofNat c.1 c.2 - rule.anchor)) rfl

theorem mem_box_mirror {o : Orientation} {rule : Rule} {size target : Vec}
    {entry : Vec × Nat × Nat} : entry ∈ o.box rule (o.mirror size target) ↔
      ∃ original ∈ identity.box rule target, o.mirrorEntry size original = entry := by
  rw [(o.box_mirror_perm rule size target).mem_iff, List.mem_map]

end Orientation

namespace Snapshot

variable {s : Snapshot}

/-- The mirror image of a snapshot. -/
def mirrored (o : Orientation) (s : Snapshot) : Snapshot where
  size := s.size
  cells := (s.size.positions.map fun p => (s.cell? (o.mirror s.size p)).getD {}).toArray

theorem full_mirrored (o : Orientation) (s : Snapshot) : (s.mirrored o).Full := by
  simp [Full, mirrored, Vec.length_positions]

theorem cell?_mirrored (o : Orientation) (full : s.Full) (p : Vec) :
    (s.mirrored o).cell? p = s.cell? (o.mirror s.size p) := by
  by_cases inside : p.inBounds s.size = true
  · obtain ⟨cell, found⟩ := full.exists_cell (o.inBounds_mirror_of_inBounds inside)
    have entry : (s.mirrored o).cells[p.place s.size]? = some cell := by
      unfold mirrored
      rw [List.getElem?_toArray, List.getElem?_map, Vec.getElem?_positions_place inside,
        Option.map_some, found, Option.getD_some]
    rw [found]
    show (if p.inBounds s.size then (s.mirrored o).cells[p.place s.size]? else none) = _
    rw [if_pos inside, entry]
  · have outside : p.inBounds s.size = false := by simpa using inside
    rw [cell?_eq_none (s := s.mirrored o) outside,
      cell?_eq_none ((o.inBounds_mirror s.size p).trans outside)]

theorem mirrored_mirrored (o : Orientation) (full : s.Full) : (s.mirrored o).mirrored o = s := by
  refine (full_mirrored o _).ext full rfl ?_
  intro p
  rw [cell?_mirrored o (full_mirrored o s), cell?_mirrored o full]
  exact congrArg s.cell? (o.mirror_mirror s.size p)

/-- The mirror image of a write is a write at the mirror image. -/
theorem mirrored_write (o : Orientation) (full : s.Full) {p : Vec}
    (inside : p.inBounds s.size = true) (cell : Cell) :
    (s.write p cell).mirrored o = (s.mirrored o).write (o.mirror s.size p) cell := by
  have image := o.inBounds_mirror_of_inBounds inside
  have full' := full_write full p cell
  refine (full_mirrored o _).ext (full_write (full_mirrored o s) _ cell) ?_ ?_
  · rw [size_write]
    exact size_write s p cell
  · intro q
    rw [cell?_mirrored o full', size_write, cell?_write full inside,
      cell?_write (full_mirrored o s) image, cell?_mirrored o full]
    -- A position is the image of another if that is the image of it.
    have same : o.mirror s.size q = p ↔ q = o.mirror s.size p := by
      constructor
      · rintro rfl
        exact (o.mirror_mirror s.size q).symm
      · rintro rfl
        exact o.mirror_mirror s.size p
    simp only [same]

end Snapshot

namespace Engine

open FallingSand.Random (WordSource)

variable {ρ : Type} {world : World}

/-! ## Runs on a snapshot and on its mirror image -/

/-- Snapshots of a size and their mirror images. -/
def mirrorLink (selfMade : SelfMade world) (o : Orientation) (size : Vec) :
    Link world Snapshot Snapshot where
  boards s t := s.Full ∧ s.size = size ∧ t = s.mirrored o
  faults _ _ _ _ := True
  good _ := True
  allowed _ := True
  good_set _ _ _ := trivial
  good_new _ := trivial
  initial id entry member slot hslot :=
    ⟨(selfMade id entry member).1 slot hslot, fun _ _ _ _ => trivial⟩
  allowed_formula _ _ := trivial
  allowed_direction := trivial
  size := size
  meets p q := q = o.mirror size p
  size_left := by
    rintro s t ⟨-, hs, -⟩
    exact hs
  size_right := by
    rintro s t ⟨-, hs, rfl⟩
    exact hs
  inBounds_eq := by
    rintro p q rfl
    exact (o.inBounds_mirror size p).symm
  cells := by
    rintro s t p q ⟨full, rfl, rfl⟩ rfl inside
    obtain ⟨cell, found⟩ := full.exists_cell inside
    have image : (s.mirrored o).cell? (o.mirror s.size p) = some cell := by
      rw [Snapshot.cell?_mirrored o full, o.mirror_mirror, found]
    exact ⟨cell, found, image, trivial⟩
  writes := by
    rintro s t p q cell ⟨full, rfl, rfl⟩ rfl inside -
    exact ⟨Snapshot.full_write full p cell, Snapshot.size_write s p cell,
      (Snapshot.mirrored_write o full inside cell).symm⟩
  faults_of_allowed _ _ := trivial

/-- A box fits a grid as the mirrored box fits the mirror image. -/
theorem coupled_fitsAt_mirror (selfMade : SelfMade world) (owner : AtomType) (rule : Rule)
    (target : Vec) (o : Orientation) (size : Vec) :
    Coupled (mirrorLink selfMade o size).toTie Eq
      (fitsAt world owner rule target .identity : Action Snapshot ρ Bool)
      (fitsAt world owner rule (o.mirror size target) o) := by
  rintro s _ source ⟨full, rfl, rfl⟩
  have cells (entry : Vec × Nat × Nat) :
      fitsOn world owner rule (s.mirrored o) (o.mirrorEntry s.size entry) =
        fitsOn world owner rule s entry := by
    unfold fitsOn Orientation.mirrorEntry
    rw [Snapshot.cell?_mirrored o full, o.mirror_mirror]
  have same : (o.box rule (o.mirror s.size target)).all (fitsOn world owner rule (s.mirrored o)) =
      (Orientation.identity.box rule target).all (fitsOn world owner rule s) := by
    rw [(o.box_mirror_perm rule s.size target).all_eq, List.all_map]
    exact congrArg _ (funext cells)
  rw [exec_fitsAt owner rule full, exec_fitsAt owner rule (Snapshot.full_mirrored o s), same]
  exact .result rfl ⟨full, rfl, rfl⟩

theorem mirrored_fillAll (o : Orientation) {s : Snapshot} (full : s.Full)
    (l : List (Vec × Fill)) (inside : ∀ x ∈ l, x.2 = .keep ∨ x.1.inBounds s.size = true) :
    (fillAll s l).mirrored o =
      fillAll (s.mirrored o) (l.map fun x => (o.mirror s.size x.1, x.2)) := by
  induction l generalizing s with
  | nil => rfl
  | cons x rest ih =>
    obtain ⟨p, fill⟩ := x
    have size := fill.size_on s p
    have tail := ih (fill.full_on full p) fun y hy => by
      rw [size]
      exact inside y (List.mem_cons_of_mem _ hy)
    have head : (fill.on s p).mirrored o = fill.on (s.mirrored o) (o.mirror s.size p) := by
      cases fill with
      | keep => rfl
      | fail => rfl
      | write cell =>
        rcases inside (p, .write cell) List.mem_cons_self with kept | there
        · cases kept
        · exact Snapshot.mirrored_write o full there cell
    rw [size, head] at tail
    exact tail

theorem fillAt_mirrorEntry (fill : Nat × Nat → Fill) (o : Orientation) (size : Vec)
    (entry : Vec × Nat × Nat) :
    fillAt fill size (o.mirrorEntry size entry) = fillAt fill size entry := by
  unfold fillAt Orientation.mirrorEntry
  rw [o.inBounds_mirror]

/-- A cell fails to be filled in one box if one does in the other. -/
theorem fails_mirror (fill : Nat × Nat → Fill) (o : Orientation) (rule : Rule)
    (size target : Vec) :
    (∃ entry ∈ o.box rule (o.mirror size target), fillAt fill size entry = .fail) ↔
      ∃ entry ∈ Orientation.identity.box rule target, fillAt fill size entry = .fail := by
  constructor
  · rintro ⟨entry, member, failed⟩
    obtain ⟨original, member', rfl⟩ := Orientation.mem_box_mirror.mp member
    rw [fillAt_mirrorEntry] at failed
    exact ⟨original, member', failed⟩
  · rintro ⟨entry, member, failed⟩
    refine ⟨o.mirrorEntry size entry, Orientation.mem_box_mirror.mpr ⟨entry, member, rfl⟩, ?_⟩
    rw [fillAt_mirrorEntry, failed]

/-- The mirror image of a filled box is the mirrored box of the image, filled. -/
theorem mirrored_fillAll_box (fill : Nat × Nat → Fill) (o : Orientation) (rule : Rule)
    (target : Vec) {s : Snapshot} (full : s.Full) :
    (fillAll s ((Orientation.identity.box rule target).map fun entry =>
      (entry.1, fillAt fill s.size entry))).mirrored o =
      fillAll (s.mirrored o) ((o.box rule (o.mirror s.size target)).map fun entry =>
        (entry.1, fillAt fill s.size entry)) := by
  have perm := (o.box_mirror_perm rule s.size target).map fun entry =>
    (entry.1, fillAt fill s.size entry)
  have distinct : (((o.box rule (o.mirror s.size target)).map fun entry =>
      (entry.1, fillAt fill s.size entry)).map Prod.fst).Nodup := by
    rw [List.map_map]
    exact o.box_nodup rule (o.mirror s.size target)
  have inGrid : ∀ x ∈ (Orientation.identity.box rule target).map fun entry =>
      (entry.1, fillAt fill s.size entry), x.2 = .keep ∨ x.1.inBounds s.size = true := by
    intro x member
    obtain ⟨entry, -, rfl⟩ := List.mem_map.mp member
    show (if entry.1.inBounds s.size then fill entry.2 else .keep) = .keep ∨ _
    cases entry.1.inBounds s.size with
    | false => exact .inl rfl
    | true => exact .inr rfl
  rw [mirrored_fillAll o full _ inGrid, fillAll_perm perm distinct, List.map_map, List.map_map]
  refine congrArg _ (List.map_congr_left ?_)
  intro entry _
  exact Prod.ext rfl (fillAt_mirrorEntry fill o s.size entry).symm

variable [WordSource ρ]

/-- Filling a box and filling the mirrored box of the mirror image end alike. -/
theorem coupled_fillBox_mirror (selfMade : SelfMade world) (rule : Rule) {target : Vec}
    (o : Orientation) {size : Vec} (inside : target.inBounds size = true)
    (captured : Table Cell) :
    Coupled (mirrorLink selfMade o size).toTie Eq
      (fillBox world rule target .identity captured : Action Snapshot ρ Unit)
      (fillBox world rule (o.mirror size target) o captured) := by
  rw [fillBox_eq, fillBox_eq]
  refine ((mirrorLink selfMade o size).coupled_read rfl inside).bind ?_
  rintro anchor _ ⟨rfl, -⟩
  obtain ⟨fill, settles⟩ := settles_fillCell (ρ := ρ) selfMade rule anchor captured
  rintro s _ source ⟨full, rfl, rfl⟩
  have full' := Snapshot.full_mirrored o s
  by_cases fails : ∃ entry ∈ Orientation.identity.box rule target,
      fillAt fill s.size entry = .fail
  · -- A cell that fails to be filled does so in both runs, if not at the same time.
    have fails' := (fails_mirror fill o rule s.size target).mpr fails
    obtain ⟨e, b, left⟩ :=
      exec_forM_fail (fun entry _ => settles s.size entry) fails full rfl source
    obtain ⟨e', b', right⟩ :=
      exec_forM_fail (fun entry _ => settles s.size entry) fails' full' rfl source
    rw [left, right]
    exact .fault trivial
  · have ok : ∀ entry ∈ Orientation.identity.box rule target,
        fillAt fill s.size entry ≠ .fail :=
      fun entry member failed => fails ⟨entry, member, failed⟩
    have ok' : ∀ entry ∈ o.box rule (o.mirror s.size target),
        fillAt fill s.size entry ≠ .fail :=
      fun entry member failed =>
        fails ((fails_mirror fill o rule s.size target).mp ⟨entry, member, failed⟩)
    rw [exec_forM_fill (fun entry _ => settles s.size entry) ok full rfl,
      exec_forM_fill (fun entry _ => settles s.size entry) ok' full' rfl]
    exact .result rfl ⟨full_fillAll full _, size_fillAll s _,
      (mirrored_fillAll_box fill o rule target full).symm⟩

/-- A rule ends on the mirror image, in the orientation of that, as it ends on the grid. -/
theorem coupled_applyRule_mirror (selfMade : SelfMade world) (owner : AtomType) (rule : Rule)
    {target : Vec} (o : Orientation) {size : Vec} (inside : target.inBounds size = true) :
    Coupled (mirrorLink selfMade o size).toTie Eq
      (applyRule world owner rule target .identity : Action Snapshot ρ Bool)
      (applyRule world owner rule (o.mirror size target) o) := by
  have images (offset : Vec) : (mirrorLink selfMade o size).meets
      (target + Orientation.identity.apply offset) (o.mirror size target + o.apply offset) :=
    o.mirror_add_apply size target offset
  have covers (e : Expr) : (mirrorLink selfMade o size).Covers e target (o.mirror size target)
      .identity o := fun slot _ => ⟨images slot.offset, fun _ _ _ _ => trivial⟩
  -- Offsets lead to images of each other; only the box is gone through in another order.
  refine (mirrorLink selfMade o size).coupled_applyRule
    (coupled_fitsAt_mirror selfMade owner rule target o size) (fun e _ => covers e) ?_ ?_
  · intro step _
    cases step with
    | update kind name offset value => exact ⟨images offset, covers value⟩
    | map => trivial
    | bind symbol offset => exact images offset
  · rintro - x _ ⟨rfl, -⟩
    exact coupled_fillBox_mirror selfMade rule o inside x

end Engine

open Engine
open FallingSand.Random (WordSource)

/-- A rule that is tried in an orientation on the mirror image of a grid, at the mirror image
of a position, gives the answer that the rule as it is written gives on the grid, leaves the
mirror image of what that leaves and draws the same; and one fails where the other does. -/
theorem applyRule_mirrored {source : List Char} {compiled : Script.Compiled}
    (h : Script.compile source = .ok compiled)
    (drawless : ∀ atom ∈ compiled.world.atoms, ∀ entry ∈ atom.init, entry.2.randoms = [])
    (owner : AtomType) (rule : Rule) (o : Orientation) {s : Snapshot} (full : s.Full)
    (target : Vec) (inside : target.inBounds s.size = true) {ρ : Type} [WordSource ρ]
    (words : ρ) :
    let plain := (applyRule compiled.world owner rule target .identity).run.run
      (⟨s, words⟩ : State Snapshot ρ)
    let mirrored := (applyRule compiled.world owner rule (o.mirror s.size target) o).run.run
      (⟨s.mirrored o, words⟩ : State Snapshot ρ)
    (∀ applied, mirrored.1 = .ok applied ↔ plain.1 = .ok applied) ∧
      (∀ applied, plain.1 = .ok applied →
        mirrored.2.board = plain.2.board.mirrored o ∧
          plain.2.board = mirrored.2.board.mirrored o ∧
          mirrored.2.source = plain.2.source) ∧
      ((∃ e, mirrored.1 = .error e) ↔ ∃ e, plain.1 = .error e) := by
  intro plain mirrored
  have selfMade : SelfMade compiled.world := fun id entry member =>
    ⟨(Script.shaped_atom h id).1.init entry member,
      drawless _ (Array.mem_toList_iff.mp (compiled.world.atom_mem id)) entry member⟩
  have ends : (mirrorLink selfMade o s.size).Ends Eq plain mirrored :=
    coupled_applyRule_mirror selfMade owner rule o inside s (s.mirrored o) words
      ⟨full, rfl, rfl⟩
  revert ends
  generalize plain = left
  generalize mirrored = right
  intro ends
  cases ends with
  | result same boards =>
    obtain ⟨full', -, image⟩ := boards
    subst same image
    refine ⟨fun _ => Iff.rfl, fun _ _ => ⟨rfl, (Snapshot.mirrored_mirrored o full').symm, rfl⟩, ?_⟩
    constructor
    · rintro ⟨_, impossible⟩
      cases impossible
    · rintro ⟨_, impossible⟩
      cases impossible
  | fault _ => exact ⟨fun _ => ⟨nofun, nofun⟩, fun _ => nofun, fun _ => ⟨_, rfl⟩, fun _ => ⟨_, rfl⟩⟩

theorem sunk_drawless :
    ∀ atom ∈ Script.sunk.world.atoms, ∀ entry ∈ atom.init, entry.2.randoms = [] := by
  decide +kernel

theorem sunk_applyRule_mirrored : Snapshot.pile.Full ∧
    (⟨0, 0⟩ : Vec).inBounds Snapshot.pile.size = true ∧
    ∀ rule ∈ (Script.sunk.world.atom 1).allRules, ∀ applied,
      ((applyRule Script.sunk.world (Script.sunk.world.atom 1) rule ⟨2, 0⟩ ⟨true, false⟩).run.run
        (⟨Snapshot.pile.mirrored ⟨true, false⟩, ⟨7⟩⟩ : State Snapshot Random.SplitMix)).1 =
          .ok applied ↔
      ((applyRule Script.sunk.world (Script.sunk.world.atom 1) rule ⟨0, 0⟩ .identity).run.run
        (⟨Snapshot.pile, ⟨7⟩⟩ : State Snapshot Random.SplitMix)).1 = .ok applied :=
  ⟨rfl, by decide, fun rule _ =>
    (applyRule_mirrored Script.compile_sinking sunk_drawless (Script.sunk.world.atom 1) rule
      ⟨true, false⟩ (s := Snapshot.pile) rfl ⟨0, 0⟩ (by decide)
      (⟨7⟩ : Random.SplitMix)).1⟩

end FallingSand
