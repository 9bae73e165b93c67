import FallingSand.Proofs.Board.Snapshot
import FallingSand.Proofs.Engine.LinkedRules

/-!
# Boxes on a snapshot

A snapshot has every cell of its grid. So a box is matched without errors, and
whether it fits is a conjunction over its cells. The cells of a box are filled one
after the other, and yet no cell sees the others: what comes of filling a cell is
settled by its symbol, by what is captured and by the world alone. So in either case
it does not matter in which order the cells are gone through.
-/

namespace FallingSand

namespace Engine

open FallingSand.Random (WordSource)

/-! ## Matching -/

section Matching

variable {ρ : Type} {world : World}

/-- Whether the cell of a snapshot fits the symbol at a coordinate of the patterns. -/
def fitsOn (world : World) (owner : AtomType) (rule : Rule) (s : Snapshot)
    (entry : Vec × Nat × Nat) : Bool :=
  match rule.matchSymbol? entry.2.1 entry.2.2, s.cell? entry.1 with
  | none, _ => true
  | some symbol, none => symbol == .outside
  | some symbol, some cell => accepts world owner symbol cell.atom

theorem exec_fitsCell (owner : AtomType) (rule : Rule) {s : Snapshot} (full : s.Full)
    (entry : Vec × Nat × Nat) (source : ρ) :
    exec (fitsCell world owner rule entry) ⟨s, source⟩ =
      (.ok (fitsOn world owner rule s entry), ⟨s, source⟩) := by
  unfold fitsCell fitsOn
  cases rule.matchSymbol? entry.2.1 entry.2.2 with
  | none => rfl
  | some symbol =>
    dsimp only
    unfold fits
    rw [exec_bind, exec_inGrid]
    dsimp only
    cases inside : Board.inGrid s entry.1 with
    | false =>
      have nowhere : s.cell? entry.1 = none := Snapshot.cell?_eq_none inside
      rw [nowhere]
      rfl
    | true =>
      obtain ⟨cell, found⟩ := full.exists_cell inside
      have there : Board.cell? s entry.1 = some cell := found
      have asked (answer : AtomId → Bool) :
          exec (read entry.1 >>= fun cell => pure (answer cell.atom))
            (⟨s, source⟩ : State Snapshot ρ) = (.ok (answer cell.atom), ⟨s, source⟩) := by
        rw [exec_bind, exec_read, there]
        rfl
      rw [found]
      -- Only some symbols have the cell read; the others know the answer.
      cases symbol with
      | any => rfl
      | inside => rfl
      | outside => rfl
      | empty => exact asked (accepts world owner .empty)
      | nonempty => exact asked (accepts world owner .nonempty)
      | notMember set => exact asked (accepts world owner (.notMember set))
      | member set => exact asked (accepts world owner (.member set))

/-- A loop that asks each entry the same state. -/
theorem exec_allM {β ι : Type} {l : List ι} {f : ι → Action β ρ Bool} {fit : ι → Bool}
    {s : State β ρ} (each : ∀ x ∈ l, exec (f x) s = (.ok (fit x), s)) :
    exec (l.allM f) s = (.ok (l.all fit), s) := by
  induction l with
  | nil => rfl
  | cons x rest ih =>
    have tail := ih fun y hy => each y (List.mem_cons_of_mem _ hy)
    rw [List.allM, exec_bind, each x List.mem_cons_self, List.all_cons]
    cases fit x with
    | false => rfl
    | true => exact tail

theorem exec_fitsAt (owner : AtomType) (rule : Rule) {s : Snapshot} (full : s.Full)
    (target : Vec) (o : Orientation) (source : ρ) :
    exec (fitsAt world owner rule target o) ⟨s, source⟩ =
      (.ok ((o.box rule target).all (fitsOn world owner rule s)), ⟨s, source⟩) := by
  rw [fitsAt_eq]
  exact exec_allM fun entry _ => exec_fitsCell owner rule full entry source

end Matching

/-! ## Filling a cell -/

/-- What comes of filling a cell. -/
inductive Fill where
  | keep
  | write (cell : Cell)
  | fail
  deriving DecidableEq

/-- A snapshot with a cell filled. -/
def Fill.on (s : Snapshot) (p : Vec) : Fill → Snapshot
  | .write cell => s.write p cell
  | _ => s

@[simp] theorem Fill.size_on (fill : Fill) (s : Snapshot) (p : Vec) :
    (fill.on s p).size = s.size := by
  cases fill <;> simp [Fill.on]

theorem Fill.full_on (fill : Fill) {s : Snapshot} (full : s.Full) (p : Vec) :
    (fill.on s p).Full := by
  cases fill with
  | write cell => exact Snapshot.full_write full p cell
  | keep => exact full
  | fail => exact full

/-- Different cells can be filled in either order. -/
theorem Fill.on_comm (first second : Fill) (s : Snapshot) {p q : Vec} (different : p ≠ q) :
    second.on (first.on s p) q = first.on (second.on s q) p := by
  cases first with
  | write cell =>
    cases second with
    | write other => exact s.write_comm different cell other
    | keep => rfl
    | fail => rfl
  | keep => rfl
  | fail => rfl

variable {ρ : Type}

/-- How filling a cell ends. -/
def Fill.Ends (fill : Fill) (s : Snapshot) (p : Vec) (source : ρ)
    (outcome : Except Error Unit × State Snapshot ρ) : Prop :=
  match fill with
  | .fail => ∃ e after, outcome = (.error e, ⟨after, source⟩)
  | .keep => outcome = (.ok (), ⟨s, source⟩)
  | .write cell => outcome = (.ok (), ⟨s.write p cell, source⟩)

/-- An action fills the cell at a position, and neither the rest of the board nor the
words matter to it. -/
def Fill.Settles (fill : Fill) (size p : Vec) (m : Action Snapshot ρ Unit) : Prop :=
  ∀ s source, s.Full → s.size = size → fill.Ends s p source (exec m ⟨s, source⟩)

variable {size p : Vec}

theorem Fill.settles_pure : Fill.keep.Settles size p (pure () : Action Snapshot ρ Unit) :=
  fun _ _ _ _ => rfl

/-- A write on a snapshot that has all of its cells. -/
theorem exec_write_full {s : Snapshot} (full : s.Full) (inside : p.inBounds s.size = true)
    (cell : Cell) (source : ρ) :
    exec (write p cell) ⟨s, source⟩ = (.ok (), ⟨s.write p cell, source⟩) := by
  obtain ⟨old, found⟩ := full.exists_cell inside
  have there : Board.cell? s p = some old := found
  rw [exec_write]
  simp only [there]
  rfl

theorem Fill.settles_write (inside : p.inBounds size = true) (cell : Cell) :
    (Fill.write cell).Settles size p (Engine.write p cell : Action Snapshot ρ Unit) := by
  rintro s source full rfl
  exact exec_write_full full inside cell source

/-! ## New cells -/

section New

variable [WordSource ρ] {world : World}

/-- What a cell knows of itself. -/
def ownLook (world : World) (cell : Cell) (name : String) (_ : Vec) : Expr.Lookup :=
  match world.resolve? cell.properties cell.atom name with
  | some x => .value x.toFloat
  | none => .missing

/-- A cell of a snapshot that is looked at from its own position is seen as it is. -/
theorem look_own {s : Snapshot} {cell : Cell} (found : s.cell? p = some cell) (name : String) :
    look world s p .identity name Vec.zero = ownLook world cell name Vec.zero := by
  have here : Board.inGrid s p = true := Snapshot.inBounds_of_cell? found
  have there : Board.cell? s p = some cell := found
  unfold look
  rw [Orientation.add_identity_apply_zero]
  simp only [here, there]
  rfl

theorem look_write {s : Snapshot} (full : s.Full) (inside : p.inBounds s.size = true)
    (cell : Cell) (name : String) :
    look world (s.write p cell) p .identity name Vec.zero = ownLook world cell name Vec.zero :=
  look_own (by rw [Snapshot.cell?_write full inside, if_pos rfl]) name

/-- Working out a property of a new cell. -/
theorem exec_setInitial {e : Expr} (own : e.ReadsSelf) (cell : Cell) (name : String)
    {s : Snapshot} (full : s.Full) (inside : p.inBounds s.size = true) (source : ρ) :
    exec (setInitial world p name e) ⟨s.write p cell, source⟩ =
      let value := (e.eval (ownLook world cell)).run source
      match value.1 with
      | .ok (some x) => (.ok (), ⟨s.write p (cell.set name x.toFloat32), value.2⟩)
      | .ok none => (.ok (), ⟨s.write p cell, value.2⟩)
      | .error error => (.error (.eval error), ⟨s.write p cell, value.2⟩) := by
  -- All slots are at the cell itself.
  have same : (e.eval (look world (s.write p cell) p .identity) : StateM ρ _) =
      e.eval (ownLook world cell) := by
    refine Expr.eval_congr e ?_
    intro slot member
    rw [own slot member]
    exact look_write full inside cell slot.name
  unfold setInitial
  rw [exec_bind, exec_evaluate, same]
  dsimp only
  cases ((e.eval (ownLook world cell)).run source).1 with
  | error error => rfl
  | ok found =>
    cases found with
    | none => rfl
    | some x =>
      have full' := Snapshot.full_write full p cell
      have inside' : p.inBounds (s.write p cell).size = true := by
        rw [Snapshot.size_write, inside]
      have there : Board.cell? (s.write p cell) p = some cell := by
        show (s.write p cell).cell? p = some cell
        rw [Snapshot.cell?_write full inside, if_pos rfl]
      show exec (read p >>= fun cell => write p (cell.set name x.toFloat32)) _ = _
      rw [exec_bind, exec_read]
      simp only [there]
      rw [exec_write_full full' inside', Snapshot.write_write]

/-- Writes a new cell and works out some of its properties. -/
def makeCell (world : World) (entries : List (String × Expr)) (cell : Cell) (p : Vec) :
    Action Snapshot ρ Unit := do
  write p cell
  entries.forM fun (name, e) => setInitial world p name e

theorem retype_eq (id : AtomId) :
    (retype world p id : Action Snapshot ρ Unit) =
      makeCell world (world.atom id).init (world.atom id).newCell p := rfl

theorem exec_makeCell {s : Snapshot} (full : s.Full) (inside : p.inBounds s.size = true)
    (entries : List (String × Expr)) (cell : Cell) (source : ρ) :
    exec (makeCell world entries cell p) ⟨s, source⟩ =
      exec (entries.forM fun (name, e) => setInitial world p name e) ⟨s.write p cell, source⟩ := by
  unfold makeCell
  rw [exec_bind, exec_write_full full inside]

/-- After its first property a new cell goes on as if it had had that from the start. -/
theorem exec_makeCell_cons {e : Expr} (own : e.ReadsSelf) (cell : Cell) (name : String)
    (rest : List (String × Expr)) {s : Snapshot} (full : s.Full)
    (inside : p.inBounds s.size = true) (source : ρ) :
    exec (makeCell world ((name, e) :: rest) cell p) ⟨s, source⟩ =
      let value := (e.eval (ownLook world cell)).run source
      match value.1 with
      | .ok (some x) => exec (makeCell world rest (cell.set name x.toFloat32) p) ⟨s, value.2⟩
      | .ok none => exec (makeCell world rest cell p) ⟨s, value.2⟩
      | .error error => (.error (.eval error), ⟨s.write p cell, value.2⟩) := by
  rw [exec_makeCell full inside]
  show exec (setInitial world p name e >>= fun _ =>
    rest.forM fun (name, e) => setInitial world p name e) _ = _
  rw [exec_bind, exec_setInitial own cell name full inside]
  dsimp only
  cases ((e.eval (ownLook world cell)).run source).1 with
  | error error => rfl
  | ok found =>
    cases found with
    | none => exact (exec_makeCell full inside rest cell _).symm
    | some x => exact (exec_makeCell full inside rest _ _).symm

/-- What becomes of a cell for which properties are worked out, each from what the cell is by
then: whether all goes well, the cell, and the words that are left. -/
def workOut (world : World) : List (String × Expr) → Cell → ρ → Except Error Unit × Cell × ρ
  | [], cell, source => (.ok (), cell, source)
  | (name, e) :: rest, cell, source =>
    let value := (e.eval (ownLook world cell)).run source
    match value.1 with
    | .ok (some x) => workOut world rest (cell.set name x.toFloat32) value.2
    | .ok none => workOut world rest cell value.2
    | .error error => (.error (.eval error), cell, value.2)

/-- A new cell is worked out from itself and the words alone; the board it is written to does
not matter. -/
theorem exec_makeCell_workOut {entries : List (String × Expr)}
    (own : ∀ entry ∈ entries, entry.2.ReadsSelf) (cell : Cell) {s : Snapshot} (full : s.Full)
    (inside : p.inBounds s.size = true) (source : ρ) :
    exec (makeCell world entries cell p) ⟨s, source⟩ =
      let made := workOut world entries cell source
      (made.1, ⟨s.write p made.2.1, made.2.2⟩) := by
  induction entries generalizing cell source with
  | nil => exact exec_makeCell full inside [] cell source
  | cons entry rest ih =>
    obtain ⟨name, e⟩ := entry
    have tail := ih fun entry member => own entry (List.mem_cons_of_mem _ member)
    rw [exec_makeCell_cons (own (name, e) List.mem_cons_self) cell name rest full inside, workOut]
    dsimp only
    cases ((e.eval (ownLook world cell)).run source).1 with
    | error error => rfl
    | ok found =>
      cases found with
      | none => exact tail cell _
      | some x => exact tail (cell.set name x.toFloat32) _

/-- What becomes of a new cell is settled if working out its properties draws nothing. -/
theorem settles_makeCell {entries : List (String × Expr)}
    (each : ∀ entry ∈ entries, entry.2.ReadsSelf ∧ entry.2.randoms = []) (cell : Cell) :
    ∃ fill : Fill, ∀ size p, p.inBounds size = true →
      fill.Settles size p (makeCell world entries cell p : Action Snapshot ρ Unit) := by
  induction entries generalizing cell with
  | nil =>
    refine ⟨.write cell, ?_⟩
    intro size p inside s source full hs
    subst hs
    exact exec_makeCell full inside [] cell source
  | cons entry rest ih =>
    obtain ⟨name, e⟩ := entry
    obtain ⟨own, drawless⟩ := each (name, e) List.mem_cons_self
    obtain ⟨result, value⟩ := Expr.eval_of_no_randoms (ρ := ρ) drawless (ownLook world cell)
    have tail := ih fun entry member => each entry (List.mem_cons_of_mem _ member)
    have step (size p : Vec) (s : Snapshot) (source : ρ) (full : s.Full) (hs : s.size = size)
        (inside : p.inBounds size = true) := by
      have first : exec (makeCell world ((name, e) :: rest) cell p) ⟨s, source⟩ = _ :=
        exec_makeCell_cons own cell name rest full (hs ▸ inside) source
      rw [value source] at first
      exact first
    -- What becomes of the cell is settled by its first property and by the rest.
    cases result with
    | error error =>
      refine ⟨.fail, ?_⟩
      intro size p inside s source full hs
      exact ⟨_, _, step size p s source full hs inside⟩
    | ok found =>
      cases found with
      | none =>
        obtain ⟨fill, settles⟩ := tail cell
        refine ⟨fill, ?_⟩
        intro size p inside s source full hs
        rw [step size p s source full hs inside]
        exact settles size p inside s source full hs
      | some x =>
        obtain ⟨fill, settles⟩ := tail (cell.set name x.toFloat32)
        refine ⟨fill, ?_⟩
        intro size p inside s source full hs
        rw [step size p s source full hs inside]
        exact settles size p inside s source full hs

/-! ## Filling a box -/

/-- New cells of every type are worked out from themselves and without draws. -/
def SelfMade (world : World) : Prop :=
  ∀ id, ∀ entry ∈ (world.atom id).init, entry.2.ReadsSelf ∧ entry.2.randoms = []

theorem settles_place (selfMade : SelfMade world) (anchor : Cell) (captured : Table Cell)
    (symbol : EffectSymbol) :
    ∃ fill : Fill, ∀ size p, p.inBounds size = true →
      fill.Settles size p (place world anchor captured symbol p : Action Snapshot ρ Unit) := by
  have retyped (id : AtomId) : ∃ fill : Fill, ∀ size p, p.inBounds size = true →
      fill.Settles size p (retype world p id : Action Snapshot ρ Unit) := by
    simp only [retype_eq]
    exact settles_makeCell (selfMade id) _
  unfold place
  cases symbol with
  | keep => exact ⟨.keep, fun _ _ _ => Fill.settles_pure⟩
  | anchor => exact ⟨.write anchor, fun _ _ inside => Fill.settles_write inside anchor⟩
  | empty => exact retyped _
  | place name =>
    cases found : captured.get? name with
    | some cell =>
      simp only [found]
      exact ⟨.write cell, fun _ _ inside => Fill.settles_write inside cell⟩
    | none =>
      simp only [found]
      cases world.placeable? name with
      | some id => exact retyped id
      | none => exact ⟨.keep, fun _ _ _ => Fill.settles_pure⟩

/-- A fill for each coordinate of the patterns, at a position that may lie outside the
grid. -/
def fillAt (fill : Nat × Nat → Fill) (size : Vec) (entry : Vec × Nat × Nat) : Fill :=
  if entry.1.inBounds size then fill entry.2 else .keep

theorem settles_fillCell_of_none {rule : Rule} {anchor : Cell} {captured : Table Cell}
    (entry : Vec × Nat × Nat) (blank : rule.effectSymbol? entry.2.1 entry.2.2 = none) :
    Fill.keep.Settles size entry.1
      (fillCell world rule anchor captured entry : Action Snapshot ρ Unit) := by
  unfold fillCell
  rw [blank]
  exact Fill.settles_pure

/-- Outside the grid a symbol does nothing. -/
theorem settles_fillCell_of_place {rule : Rule} {anchor : Cell} {captured : Table Cell}
    (entry : Vec × Nat × Nat) {symbol : EffectSymbol} {fill : Fill}
    (found : rule.effectSymbol? entry.2.1 entry.2.2 = some symbol)
    (settles : entry.1.inBounds size = true → fill.Settles size entry.1
      (place world anchor captured symbol entry.1 : Action Snapshot ρ Unit)) :
    (if entry.1.inBounds size then fill else .keep).Settles size entry.1
      (fillCell world rule anchor captured entry : Action Snapshot ρ Unit) := by
  intro s source full hs
  subst hs
  unfold fillCell
  rw [found]
  dsimp only
  rw [exec_bind, exec_inGrid]
  show (if entry.1.inBounds s.size then fill else .keep).Ends s entry.1 source
    (exec (if entry.1.inBounds s.size then place world anchor captured symbol entry.1
      else pure ()) _)
  cases inside : entry.1.inBounds s.size with
  | false => exact rfl
  | true => exact settles inside s source full rfl

/-- What becomes of a cell of the box is settled by its coordinate in the patterns. -/
theorem settles_fillCell (selfMade : SelfMade world) (rule : Rule) (anchor : Cell)
    (captured : Table Cell) :
    ∃ fill : Nat × Nat → Fill, ∀ size entry, (fillAt fill size entry).Settles size entry.1
      (fillCell world rule anchor captured entry : Action Snapshot ρ Unit) := by
  have each (coordinate : Nat × Nat) : ∃ fill : Fill, ∀ size p : Vec,
      (if p.inBounds size then fill else .keep).Settles size p
        (fillCell world rule anchor captured (p, coordinate) : Action Snapshot ρ Unit) := by
    cases found : rule.effectSymbol? coordinate.1 coordinate.2 with
    | none =>
      refine ⟨.keep, ?_⟩
      intro size p
      rw [ite_self]
      exact settles_fillCell_of_none (p, coordinate) found
    | some symbol =>
      obtain ⟨fill, settles⟩ := settles_place (ρ := ρ) selfMade anchor captured symbol
      exact ⟨fill, fun size p => settles_fillCell_of_place (p, coordinate) found (settles size p)⟩
  choose fill settles using each
  exact ⟨fill, fun size entry => settles entry.2 size entry.1⟩

end New

/-- A snapshot with all cells filled that a list names. -/
def fillAll (s : Snapshot) (l : List (Vec × Fill)) : Snapshot :=
  l.foldl (fun s entry => entry.2.on s entry.1) s

@[simp] theorem size_fillAll (s : Snapshot) (l : List (Vec × Fill)) :
    (fillAll s l).size = s.size := by
  induction l generalizing s with
  | nil => rfl
  | cons x rest ih => exact (ih _).trans (x.2.size_on s x.1)

theorem full_fillAll {s : Snapshot} (full : s.Full) (l : List (Vec × Fill)) :
    (fillAll s l).Full := by
  induction l generalizing s with
  | nil => exact full
  | cons x rest ih => exact ih (x.2.full_on full x.1)

/-- In which order different cells are filled does not matter. -/
theorem fillAll_perm {l l' : List (Vec × Fill)} (perm : l.Perm l')
    (distinct : (l.map Prod.fst).Nodup) (s : Snapshot) : fillAll s l = fillAll s l' := by
  refine perm.foldl_eq' ?_ s
  intro x hx y hy s
  by_cases same : x.1 = y.1
  · rw [List.inj_on_of_nodup_map distinct hx hy same]
  · exact Fill.on_comm x.2 y.2 s same

section Loop

variable {ι : Type} {l : List ι} {f : ι → Action Snapshot ρ Unit} {place : ι → Vec}
  {fill : ι → Fill} (each : ∀ x ∈ l, (fill x).Settles size (place x) (f x))

include each

theorem exec_forM_fill (ok : ∀ x ∈ l, fill x ≠ .fail) {s : Snapshot} (full : s.Full)
    (hs : s.size = size) (source : ρ) :
    exec (l.forM f) ⟨s, source⟩ =
      (.ok (), ⟨fillAll s (l.map fun x => (place x, fill x)), source⟩) := by
  induction l generalizing s with
  | nil => rfl
  | cons x rest ih =>
    have tail := ih (fun y hy => each y (List.mem_cons_of_mem _ hy))
      (fun y hy => ok y (List.mem_cons_of_mem _ hy)) ((fill x).full_on full (place x))
      (((fill x).size_on s (place x)).trans hs)
    have head : exec (f x) ⟨s, source⟩ = (.ok (), ⟨(fill x).on s (place x), source⟩) := by
      have ends := each x List.mem_cons_self s source full hs
      have succeeds := ok x List.mem_cons_self
      cases filled : fill x with
      | keep =>
        rw [filled] at ends
        exact ends
      | write cell =>
        rw [filled] at ends
        exact ends
      | fail => exact absurd filled succeeds
    show exec (f x >>= fun _ => rest.forM f) ⟨s, source⟩ = _
    rw [exec_bind, head]
    exact tail

theorem exec_forM_fail (fails : ∃ x ∈ l, fill x = .fail) {s : Snapshot} (full : s.Full)
    (hs : s.size = size) (source : ρ) :
    ∃ e after, exec (l.forM f) ⟨s, source⟩ = (.error e, ⟨after, source⟩) := by
  induction l generalizing s with
  | nil =>
    obtain ⟨x, hx, -⟩ := fails
    cases hx
  | cons x rest ih =>
    have ends := each x List.mem_cons_self s source full hs
    have tail := ih (fun y hy => each y (List.mem_cons_of_mem _ hy))
    have later (succeeds : fill x ≠ .fail) : ∃ y ∈ rest, fill y = .fail := by
      obtain ⟨y, hy, fails⟩ := fails
      rcases List.mem_cons.mp hy with rfl | hy
      · exact absurd fails succeeds
      · exact ⟨y, hy, fails⟩
    show ∃ e after, exec (f x >>= fun _ => rest.forM f) ⟨s, source⟩ = (.error e, ⟨after, source⟩)
    rw [exec_bind]
    cases filled : fill x with
    | fail =>
      rw [filled] at ends
      obtain ⟨e, after, failed⟩ := ends
      rw [failed]
      exact ⟨e, after, rfl⟩
    | keep =>
      rw [filled] at ends
      rw [show exec (f x) ⟨s, source⟩ = _ from ends]
      exact tail (later (by rw [filled]; exact nofun)) full hs
    | write cell =>
      rw [filled] at ends
      rw [show exec (f x) ⟨s, source⟩ = _ from ends]
      exact tail (later (by rw [filled]; exact nofun)) (Snapshot.full_write full _ cell)
        ((s.size_write _ cell).trans hs)

end Loop

end Engine

end FallingSand
