import FallingSand.Proofs.Engine.Boxes
import FallingSand.Proofs.Engine.LinkedTicks
import Mathlib.Data.Multiset.Basic

/-!
# Material

The material of a snapshot is the multiset of its cells. Whatever is written at
once to different positions keeps it if the new cells are the old ones in another
order. A swap is the plainest case.
-/

namespace FallingSand

namespace Snapshot

/-- The cells of a snapshot, without their places. -/
def material (s : Snapshot) : Multiset Cell := s.cells.toList

/-- Two snapshots have the same material if their cells can be listed alike. -/
theorem material_eq_of_perm {s t : Snapshot} (hs : s.Full) (ht : t.Full)
    (perm : (t.size.positions.map t.cell?).Perm (s.size.positions.map s.cell?)) :
    t.material = s.material := by
  rw [ht.map_cell?_positions, hs.map_cell?_positions] at perm
  exact Multiset.coe_eq_coe.mpr
    ((List.map_perm_map_iff (Option.some_injective Cell)).mp perm)

end Snapshot

namespace Engine

open FallingSand.Random (WordSource)

/-! ## Filling cells at once -/

section Filling

variable {s : Snapshot} {l : List (Vec × Fill)}

theorem cell?_on_of_ne (full : s.Full) {p q : Vec} (fill : Fill)
    (inside : p.inBounds s.size = true) (different : q ≠ p) :
    (fill.on s p).cell? q = s.cell? q := by
  cases fill with
  | write cell =>
    show (s.write p cell).cell? q = s.cell? q
    rw [Snapshot.cell?_write full inside, if_neg different]
  | keep => rfl
  | fail => rfl

theorem cell?_on_self (full : s.Full) {p : Vec} (inside : p.inBounds s.size = true)
    (fill : Fill) : (fill.on s p).cell? p = match fill with
      | .write cell => some cell
      | _ => s.cell? p := by
  cases fill with
  | write cell =>
    show (s.write p cell).cell? p = some cell
    rw [Snapshot.cell?_write full inside, if_pos rfl]
  | keep => rfl
  | fail => rfl

theorem cell?_fillAll_of_not_mem (full : s.Full)
    (inside : ∀ x ∈ l, x.1.inBounds s.size = true) {q : Vec} (other : ∀ x ∈ l, q ≠ x.1) :
    (fillAll s l).cell? q = s.cell? q := by
  induction l generalizing s with
  | nil => rfl
  | cons x rest ih =>
    have head := cell?_on_of_ne full x.2 (inside x List.mem_cons_self)
      (other x List.mem_cons_self)
    have tail := ih (s := x.2.on s x.1) (x.2.full_on full x.1)
      (fun y hy => by
        rw [Fill.size_on]
        exact inside y (List.mem_cons_of_mem _ hy))
      fun y hy => other y (List.mem_cons_of_mem _ hy)
    exact tail.trans head

/-- A cell that is filled once is what it is filled with, whatever else is filled. -/
theorem cell?_fillAll_of_mem (full : s.Full) (distinct : (l.map Prod.fst).Nodup)
    (inside : ∀ x ∈ l, x.1.inBounds s.size = true) {x : Vec × Fill} (member : x ∈ l) :
    (fillAll s l).cell? x.1 = (x.2.on s x.1).cell? x.1 := by
  -- Let it be filled first: nothing that is filled later touches it.
  have first := List.perm_cons_erase member
  rw [fillAll_perm first distinct]
  have distinct' := (first.map Prod.fst).nodup_iff.mp distinct
  rw [List.map_cons, List.nodup_cons] at distinct'
  refine cell?_fillAll_of_not_mem (x.2.full_on full x.1) (fun y hy => ?_) fun y hy same => ?_
  · rw [Fill.size_on]
    exact inside y (List.mem_of_mem_erase hy)
  · exact distinct'.1 (List.mem_map.mpr ⟨y, hy, same.symm⟩)

/-- Filling different cells keeps the material if it puts the cells that were there
into another order. -/
theorem material_fillAll (full : s.Full) (distinct : (l.map Prod.fst).Nodup)
    (inside : ∀ x ∈ l, x.1.inBounds s.size = true)
    (balanced : (l.map fun x => (x.2.on s x.1).cell? x.1).Perm (l.map fun x => s.cell? x.1)) :
    (fillAll s l).material = s.material := by
  refine Snapshot.material_eq_of_perm full (full_fillAll full l) ?_
  rw [size_fillAll]
  let places := l.map Prod.fst
  let others := s.size.positions.filter fun p => p ∉ places
  have positions : s.size.positions.Perm (places ++ others) := by
    refine (List.perm_ext_iff_of_nodup s.size.nodup_positions ?_).mpr ?_
    · refine List.nodup_append'.mpr ⟨distinct, s.size.nodup_positions.filter _, ?_⟩
      intro p member other
      simpa [others, member] using (List.mem_filter.mp other).2
    · intro p
      have placed : p ∈ places → p ∈ s.size.positions := by
        intro member
        obtain ⟨x, hx, rfl⟩ := List.mem_map.mp member
        exact Vec.mem_positions.mpr (inside x hx)
      by_cases member : p ∈ places
      · simp [member, placed member]
      · simp [others, member]
  -- The filled cells are exchanged among each other, and the others stay.
  have filled : places.map (fillAll s l).cell? = l.map fun x => (x.2.on s x.1).cell? x.1 := by
    rw [List.map_map]
    exact List.map_congr_left fun x hx => cell?_fillAll_of_mem full distinct inside hx
  have kept : others.map (fillAll s l).cell? = others.map s.cell? := by
    refine List.map_congr_left ?_
    intro p hp
    refine cell?_fillAll_of_not_mem full inside fun x hx same => ?_
    have := (List.mem_filter.mp hp).2
    simp [places] at this
    exact this x.2 (same ▸ hx)
  have after : (s.size.positions.map (fillAll s l).cell?).Perm
      ((l.map fun x => (x.2.on s x.1).cell? x.1) ++ others.map s.cell?) := by
    rw [← filled, ← kept, ← List.map_append]
    exact positions.map _
  have before : (s.size.positions.map s.cell?).Perm
      ((l.map fun x => s.cell? x.1) ++ others.map s.cell?) := by
    have named : places.map s.cell? = l.map fun x => s.cell? x.1 := List.map_map
    rw [← named, ← List.map_append]
    exact positions.map _
  exact after.trans ((balanced.append_right _).trans before.symm)

end Filling

/-! ## Runs that keep the board as it should be -/

/-- One board with a property, and any errors. -/
def steady {β : Type} (P : β → Prop) : Tie β β where
  boards b c := b = c ∧ P b
  faults e b f c := e = f ∧ b = c ∧ P b

section Steady

variable {β ρ α : Type} {P : β → Prop} {m : Action β ρ α}

theorem coupled_steady (keeps : ∀ b source, P b → P (exec m ⟨b, source⟩).2.board) :
    Coupled (steady P) Eq m m := by
  rintro b _ source ⟨rfl, holds⟩
  have after := keeps b source holds
  revert after
  generalize exec m ⟨b, source⟩ = outcome
  intro after
  obtain ⟨result, b', source'⟩ := outcome
  cases result with
  | error e => exact .fault ⟨rfl, rfl, after⟩
  | ok x => exact .result rfl ⟨rfl, after⟩

theorem board_of_steady (coupled : Coupled (steady P) Eq m m) {b : β} (holds : P b)
    (source : ρ) : P (exec m ⟨b, source⟩).2.board := by
  have ends := coupled b b source ⟨rfl, holds⟩
  revert ends
  generalize exec m ⟨b, source⟩ = outcome
  intro ends
  cases ends with
  | result _ boards => exact boards.2
  | fault faults => exact faults.2.2

end Steady

/-- Snapshots of a size that have all of their cells and a certain material. -/
structure Holds (size : Vec) (material : Multiset Cell) (s : Snapshot) : Prop where
  full : s.Full
  size : s.size = size
  material : s.material = material

variable {ρ : Type} {size target : Vec} {material : Multiset Cell}

theorem exec_swap {p q : Vec} {s : Snapshot} (full : s.Full) (hp : p.inBounds s.size = true)
    (hq : q.inBounds s.size = true) {first second : Cell} (atP : s.cell? p = some first)
    (atQ : s.cell? q = some second) (source : ρ) :
    exec (swap p q) ⟨s, source⟩ = (.ok (), ⟨(s.write q first).write p second, source⟩) := by
  have hp' : p.inBounds (s.write q first).size = true := by rw [Snapshot.size_write, hp]
  unfold swap
  rw [exec_bind, exec_read_of_cell? atP]
  dsimp only
  rw [exec_bind, exec_read_of_cell? atQ]
  dsimp only
  rw [exec_bind, exec_write_full full hq]
  exact exec_write_full (Snapshot.full_write full q first) hp' second source

/-- The two cells of a swap are filled with each other. -/
theorem material_swap {p q : Vec} {s : Snapshot} (full : s.Full)
    (hp : p.inBounds s.size = true) (hq : q.inBounds s.size = true) {first second : Cell}
    (atP : s.cell? p = some first) (atQ : s.cell? q = some second) :
    ((s.write q first).write p second).material = s.material := by
  by_cases same : p = q
  · subst same
    rw [atP] at atQ
    cases atQ
    have unchanged : s.write p first = s := by
      refine (Snapshot.full_write full p first).ext full (s.size_write p first) ?_
      intro r
      rw [Snapshot.cell?_write full hp]
      by_cases here : r = p
      · rw [if_pos here, here, atP]
      · rw [if_neg here]
    rw [unchanged, unchanged]
  · have distinct : (([(q, .write first), (p, .write second)] : List (Vec × Fill)).map
        Prod.fst).Nodup := by
      simp [Ne.symm same]
    refine material_fillAll full distinct ?_ ?_
    · intro x member
      simp only [List.mem_cons, List.not_mem_nil, or_false] at member
      rcases member with rfl | rfl
      · exact hq
      · exact hp
    · simp only [List.map_cons, List.map_nil, cell?_on_self full hq, cell?_on_self full hp, atP,
        atQ]
      exact List.Perm.swap _ _ _

/-- A swap moves two cells and loses none. -/
theorem holds_swap {p q : Vec} (hp : p.inBounds size = true) (hq : q.inBounds size = true)
    {s : Snapshot} (holds : Holds size material s) (source : ρ) :
    Holds size material (exec (swap p q) ⟨s, source⟩).2.board := by
  obtain ⟨full, rfl, rfl⟩ := holds
  obtain ⟨first, atP⟩ := full.exists_cell hp
  obtain ⟨second, atQ⟩ := full.exists_cell hq
  rw [exec_swap full hp hq atP atQ]
  exact ⟨Snapshot.full_write (Snapshot.full_write full q first) p second, by simp,
    material_swap full hp hq atP atQ⟩

theorem steady_inGrid {p : Vec} :
    Coupled (steady (Holds size material)) (fun x y => x = y ∧ x = p.inBounds size)
      (inGrid p : Action Snapshot ρ Bool) (inGrid p) := by
  rintro s _ source ⟨rfl, holds⟩
  rw [exec_inGrid]
  refine .result ⟨rfl, ?_⟩ ⟨rfl, holds⟩
  rw [← holds.size]
  rfl

theorem steady_read {β : Type} [Board β] {P : β → Prop} {p : Vec} :
    Coupled (steady P) Eq (read p : Action β ρ Cell) (read p) := by
  refine coupled_steady ?_
  intro b source holds
  rw [exec_read]
  exact holds

/-- Movements keep what a snapshot holds. -/
theorem moves_holds (inside : target.inBounds size = true) :
    Moves ρ (steady (Holds size material)) size target where
  within _ _ := steady_inGrid
  reads _ _ _ := steady_read
  swaps _ _ there := coupled_steady fun _ source holds => holds_swap inside there holds source
  stuck _ _ boards := ⟨rfl, boards.1, boards.2⟩

end Engine

end FallingSand
