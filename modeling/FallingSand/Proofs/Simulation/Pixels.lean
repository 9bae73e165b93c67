import FallingSand.Proofs.Engine.Boxes
import FallingSand.Proofs.Script.ColorLines
import FallingSand.Proofs.Script.Shape
import FallingSand.Report.Image
import Mathlib.Data.List.Forall2

/-!
# Pixels

The expressions of color rules look at the cell itself, whatever box coordinates they name. So if
none of them draws, the pixel of a cell comes of that cell alone: two images of one world, of any
snapshots and with any words, show equal cells alike (`image_shows_cells`).
-/

namespace FallingSand

open FallingSand.Random (WordSource)
open FallingSand.Engine (look ownLook look_own)

/-! ## What a cell looks like -/

/-- The value of a property of a cell, whatever the offset is that it is read at. -/
def Cell.Has (cell : Cell) (world : World) (slot : Expr.Slot) (value : Float) : Prop :=
  ∃ y, world.resolve? cell.properties cell.atom slot.name = some y ∧ value = y.toFloat

/-- The value of an expression for a cell by itself. -/
def Cell.Gives (cell : Cell) (world : World) (e : Expr) (x : Float) : Prop :=
  ∃ values, List.Forall₂ (cell.Has world) e.slots values ∧
    e.code.eval (Expr.environment values []) = .ok x

/-- Whether the value of an expression for a cell is zero. -/
def Cell.GivesZero (cell : Cell) (world : World) (e : Expr) (zero : Bool) : Prop :=
  ∃ x, cell.Gives world e x ∧ (x == 0.0) = zero

/-- The color that the first of some rules gives to a cell whose condition is not zero. -/
inductive Cell.Colored (cell : Cell) (world : World) (rules : List ColorRule) : Color → Prop
  | first {n : Nat} {rule : ColorRule} {r g b : Float} : rules[n]? = some rule →
      (∀ earlier ∈ rules.take n, cell.GivesZero world earlier.condition true) →
      cell.GivesZero world rule.condition false →
      cell.Gives world rule.r r → cell.Gives world rule.g g → cell.Gives world rule.b b →
      Colored cell world rules ⟨r.toUInt8, g.toUInt8, b.toUInt8⟩
  | none : (∀ rule ∈ rules, cell.GivesZero world rule.condition true) →
      Colored cell world rules Color.black

/-- Whether the constant `render` of the type of a cell is one. -/
def Cell.drawn (cell : Cell) (world : World) : Bool :=
  (world.atom cell.atom).constants.get? "render" == some 1.0

/-- The color that stands for a cell in an image. -/
inductive Cell.Pixel (cell : Cell) (world : World) : Color → Prop
  | undrawn : cell.drawn world = false → Pixel cell world Color.black
  | fixed {color : Color} : cell.drawn world = true →
      (world.atom cell.atom).color = .fixed color → Pixel cell world color
  | dynamic {color : Color} : cell.drawn world = true →
      (world.atom cell.atom).color = .dynamic →
      cell.Colored world (world.atom cell.atom).colorRules color → Pixel cell world color

/-- The pixel at a position, if an image has one there. -/
def Image.pixel? (image : Image) (p : Vec) : Option Color :=
  if 0 ≤ p.x ∧ p.x.toNatClampNeg < image.width ∧ 0 ≤ p.y ∧ p.y.toNatClampNeg < image.height then
    image.pixels[p.y.toNatClampNeg * image.width + p.x.toNatClampNeg]?
  else none

/-- Whether the colors of all atoms are worked out without a random token. -/
def World.ColorsDrawless (world : World) : Prop :=
  ∀ atom ∈ world.atoms, ∀ rule ∈ atom.colorRules,
    ∀ e ∈ [rule.condition, rule.r, rule.g, rule.b], e.randoms = []

instance (world : World) : Decidable world.ColorsDrawless :=
  inferInstanceAs (Decidable (∀ atom ∈ world.atoms, ∀ rule ∈ atom.colorRules,
    ∀ e ∈ [rule.condition, rule.r, rule.g, rule.b], e.randoms = []))

/-! ## Equal cells look alike -/

section Unique

variable {cell : Cell} {world : World}

theorem Cell.Has.unique : Relator.RightUnique (cell.Has world) := by
  rintro slot _ _ ⟨y, found, rfl⟩ ⟨z, found', rfl⟩
  cases found.symm.trans found'
  rfl

theorem Cell.Gives.unique {e : Expr} {x y : Float} (first : cell.Gives world e x)
    (second : cell.Gives world e y) : x = y := by
  obtain ⟨values, found, value⟩ := first
  obtain ⟨others, found', value'⟩ := second
  rw [List.right_unique_forall₂' Cell.Has.unique found found', value'] at value
  exact (Except.ok.inj value).symm

theorem Cell.GivesZero.unique {e : Expr} {zero other : Bool} (first : cell.GivesZero world e zero)
    (second : cell.GivesZero world e other) : zero = other := by
  obtain ⟨x, gives, rfl⟩ := first
  obtain ⟨y, gives', rfl⟩ := second
  rw [gives.unique gives']

/-- A rule whose condition is zero is not the first one whose condition is not. -/
theorem Cell.GivesZero.not_lt {rules : List ColorRule} {n m : Nat} {rule : ColorRule}
    (found : rules[n]? = some rule) (holds : cell.GivesZero world rule.condition false)
    (fail : ∀ earlier ∈ rules.take m, cell.GivesZero world earlier.condition true) : ¬n < m := by
  intro before
  have member : rule ∈ rules.take m := by
    rw [List.mem_iff_getElem?]
    exact ⟨n, by rw [List.getElem?_take_of_lt before, found]⟩
  cases holds.unique (fail rule member)

/-- A rule whose condition is zero does not count. -/
theorem Cell.Colored.cons {rule : ColorRule} {rest : List ColorRule} {color : Color}
    (fails : cell.GivesZero world rule.condition true) (colored : cell.Colored world rest color) :
    cell.Colored world (rule :: rest) color := by
  cases colored with
  | @first n _ _ _ _ found fail holds red green blue =>
    refine .first (n := n + 1) found ?_ holds red green blue
    rw [List.take_succ_cons]
    exact List.forall_mem_cons.mpr ⟨fails, fail⟩
  | none fail => exact .none (List.forall_mem_cons.mpr ⟨fails, fail⟩)

theorem Cell.Colored.unique {rules : List ColorRule} {color other : Color}
    (first : cell.Colored world rules color) (second : cell.Colored world rules other) :
    color = other := by
  cases first with
  | @first n rule r g b found fail holds red green blue =>
    cases second with
    | @first m rule' r' g' b' found' fail' holds' red' green' blue' =>
      have same : n = m := by
        have := Cell.GivesZero.not_lt found holds fail'
        have := Cell.GivesZero.not_lt found' holds' fail
        omega
      subst same
      cases found.symm.trans found'
      rw [red.unique red', green.unique green', blue.unique blue']
    | none fail' => cases holds.unique (fail' rule (List.mem_of_getElem? found))
  | none fail =>
    cases second with
    | first found _ holds => cases holds.unique (fail _ (List.mem_of_getElem? found))
    | none => rfl

theorem Cell.Pixel.unique {color other : Color} (first : cell.Pixel world color)
    (second : cell.Pixel world other) : color = other := by
  cases first with
  | undrawn hidden =>
    cases second with
    | undrawn => rfl
    | fixed drawn | dynamic drawn => cases hidden.symm.trans drawn
  | fixed drawn own =>
    cases second with
    | undrawn hidden => cases hidden.symm.trans drawn
    | fixed _ own' => cases own.symm.trans own'; rfl
    | dynamic _ ruled => cases own.symm.trans ruled
  | dynamic drawn ruled colored =>
    cases second with
    | undrawn hidden => cases hidden.symm.trans drawn
    | fixed _ own => cases own.symm.trans ruled
    | dynamic _ _ colored' => exact colored.unique colored'

end Unique

/-! ## Working out without words -/

section Wordless

variable {ρ α δ : Type} {P : α → Prop} {Q : δ → Prop}

/-- Nothing is drawn, and what holds of the result, if there is one. -/
def Wordless (m : ExceptT Expr.EvalError (StateM ρ) α) (P : α → Prop) : Prop :=
  ∀ words, ∃ result, m.run.run words = (result, words) ∧ ∀ x, result = .ok x → P x

namespace Wordless

theorem pure {x : α} (h : P x) : Wordless (Pure.pure x : ExceptT _ (StateM ρ) α) P :=
  fun _ => ⟨.ok x, rfl, fun _ same => by cases same; exact h⟩

theorem bind {m : ExceptT Expr.EvalError (StateM ρ) α} {f : α → ExceptT _ (StateM ρ) δ}
    (first : Wordless m P) (next : ∀ x, P x → Wordless (f x) Q) : Wordless (m >>= f) Q := by
  intro words
  obtain ⟨result, ran, holds⟩ := first words
  cases result with
  | error error =>
    refine ⟨.error error, ?_, nofun⟩
    rw [ExceptT.run_bind, StateT.run_bind, ran]
    rfl
  | ok x =>
    obtain ⟨result, ran', holds'⟩ := next x (holds x rfl) words
    refine ⟨result, ?_, holds'⟩
    rw [ExceptT.run_bind, StateT.run_bind, ran]
    exact ran'

theorem mono {m : ExceptT Expr.EvalError (StateM ρ) α} {P' : α → Prop} (wordless : Wordless m P)
    (imp : ∀ x, P x → P' x) : Wordless m P' := by
  intro words
  obtain ⟨result, ran, holds⟩ := wordless words
  exact ⟨result, ran, fun x same => imp x (holds x same)⟩

theorem mapM {f : α → ExceptT Expr.EvalError (StateM ρ) δ} {R : α → δ → Prop} {l : List α}
    (each : ∀ x ∈ l, Wordless (f x) (R x)) : Wordless (l.mapM f) (List.Forall₂ R l) := by
  induction l with
  | nil => exact pure .nil
  | cons x rest ih =>
    rw [List.mapM_cons]
    refine (each x List.mem_cons_self).bind fun y here => ?_
    exact (ih fun z member => each z (List.mem_cons_of_mem _ member)).bind fun ys there =>
      pure (.cons here there)

theorem ok {m : ExceptT Expr.EvalError (StateM ρ) α} (wordless : Wordless m P) {words left : ρ}
    {x : α} (ran : m.run.run words = (.ok x, left)) : left = words ∧ P x := by
  obtain ⟨result, ran', holds⟩ := wordless words
  cases ran.symm.trans ran'
  exact ⟨rfl, holds x rfl⟩

end Wordless

end Wordless

/-! ## Colors -/

section Colors

variable {ρ : Type} [WordSource ρ] {world : World} {cell : Cell} {s : Snapshot} {p : Vec}

/-- A cell by itself has all properties that an expression reads, or there is an error. -/
theorem values_of_ownLook {source : List Char} {slots : List Expr.Slot}
    {found : Option (List Float)}
    (h : Expr.slotValues source (ownLook world cell) slots = .ok found) :
    ∃ values, found = some values ∧ List.Forall₂ (cell.Has world) slots values := by
  induction slots generalizing found with
  | nil => cases h; exact ⟨[], rfl, .nil⟩
  | cons slot rest ih =>
    unfold Expr.slotValues ownLook at h
    cases resolved : world.resolve? cell.properties cell.atom slot.name with
    | none =>
      rw [resolved] at h
      cases h
    | some y =>
      rw [resolved] at h
      obtain ⟨later, tail, h⟩ := Script.bind_eq_ok.mp h
      cases h
      obtain ⟨values, rfl, all⟩ := ih tail
      exact ⟨y.toFloat :: values, rfl, .cons ⟨y, resolved, rfl⟩ all⟩

/-- The value at a cell of an expression that looks at the cell itself and draws nothing. -/
theorem wordless_value {e : Expr} (own : e.ReadsSelf) (drawless : e.randoms = [])
    (found : s.cell? p = some cell) :
    Wordless (s.value world p e : ExceptT _ (StateM ρ) _) fun value =>
      ∃ x, value = some x ∧ cell.Gives world e x := by
  have same : (e.eval (look world s p .identity) : StateM ρ _) = e.eval (ownLook world cell) := by
    refine Expr.eval_congr e fun slot member => ?_
    rw [own slot member]
    exact look_own found slot.name
  intro words
  show ∃ result, (e.eval (look world s p .identity)).run words = (result, words) ∧ _
  rw [same]
  cases slots : Expr.slotValues e.source (ownLook world cell) e.slots with
  | error error =>
    refine ⟨.error error, ?_, nofun⟩
    unfold Expr.eval
    rw [slots]
    rfl
  | ok found =>
    obtain ⟨values, rfl, resolved⟩ := values_of_ownLook slots
    refine ⟨_, by rw [Expr.eval_of_values slots, Expr.draws_of_no_randoms drawless], ?_⟩
    intro value result
    cases evaluated : e.code.eval (Expr.environment values []) with
    | error fault =>
      rw [evaluated] at result
      cases result
    | ok x =>
      rw [evaluated] at result
      cases result
      exact ⟨x, rfl, values, resolved, evaluated⟩

theorem wordless_channel {e : Expr} (own : e.ReadsSelf) (drawless : e.randoms = [])
    (found : s.cell? p = some cell) :
    Wordless (s.channel world p e : ExceptT _ (StateM ρ) _) fun byte =>
      ∃ x, cell.Gives world e x ∧ byte = x.toUInt8 := by
  refine (wordless_value own drawless found).bind ?_
  rintro _ ⟨x, rfl, gives⟩
  exact .pure ⟨x, gives, rfl⟩

/-- The first rule whose condition is not zero gives the color. -/
theorem wordless_dynamicColor {rules : List ColorRule}
    (each : ∀ rule ∈ rules, ∀ e ∈ [rule.condition, rule.r, rule.g, rule.b],
      e.ReadsSelf ∧ e.randoms = []) (found : s.cell? p = some cell) :
    Wordless (s.dynamicColor world p rules : ExceptT _ (StateM ρ) _)
      (cell.Colored world rules) := by
  induction rules with
  | nil => exact .pure (.none nofun)
  | cons rule rest ih =>
    obtain ⟨condition, r, g, b⟩ :
        (rule.condition.ReadsSelf ∧ rule.condition.randoms = []) ∧
          (rule.r.ReadsSelf ∧ rule.r.randoms = []) ∧
          (rule.g.ReadsSelf ∧ rule.g.randoms = []) ∧ rule.b.ReadsSelf ∧ rule.b.randoms = [] := by
      simpa using each rule List.mem_cons_self
    refine (wordless_value condition.1 condition.2 found).bind ?_
    rintro _ ⟨x, rfl, gives⟩
    cases zero : x == 0.0 with
    | true =>
      have fails : (some x).any Expr.truthy = false := by
        rw [Option.any_some, Expr.truthy, bne, zero, Bool.not_true]
      rw [if_neg (by simp [fails])]
      have tail := ih fun other member => each other (List.mem_cons_of_mem _ member)
      exact tail.mono fun _ => .cons ⟨x, gives, zero⟩
    | false =>
      have holds : (some x).any Expr.truthy = true := by
        rw [Option.any_some, Expr.truthy, bne, zero, Bool.not_false]
      rw [if_pos holds]
      refine (wordless_channel r.1 r.2 found).bind ?_
      rintro _ ⟨red, givesRed, rfl⟩
      refine (wordless_channel g.1 g.2 found).bind ?_
      rintro _ ⟨green, givesGreen, rfl⟩
      refine (wordless_channel b.1 b.2 found).bind ?_
      rintro _ ⟨blue, givesBlue, rfl⟩
      exact .pure (.first (n := 0) rfl nofun ⟨x, gives, zero⟩ givesRed givesGreen givesBlue)

/-- The color of a cell in an image. -/
theorem wordless_pixel
    (each : ∀ rule ∈ (world.atom cell.atom).colorRules,
      ∀ e ∈ [rule.condition, rule.r, rule.g, rule.b], e.ReadsSelf ∧ e.randoms = [])
    (found : s.cell? p = some cell) :
    Wordless (if s.isDrawn world p then s.color world p else return Color.black :
      ExceptT _ (StateM ρ) _) (cell.Pixel world) := by
  have drawn : s.isDrawn world p = cell.drawn world := by
    rw [Snapshot.isDrawn, found, Cell.drawn]
  rw [drawn]
  cases shown : cell.drawn world with
  | false => exact .pure (.undrawn shown)
  | true =>
    rw [if_pos rfl]
    unfold Snapshot.color
    rw [found]
    dsimp only
    split
    · rename_i color fixed
      exact .pure (.fixed shown fixed)
    · rename_i dynamic
      exact (wordless_dynamicColor each found).mono fun _ => .dynamic shown dynamic

/-- The pixels of an image are in rows, one for each position. -/
theorem pixel?_eq_getElem? {image : Image} {size : Vec} (width : image.width = size.columns)
    (height : image.height = size.rows) (inside : p.inBounds size = true) :
    image.pixel? p = image.pixels[p.place size]? := by
  have within := (Vec.inBounds_iff p size).mp inside
  rw [Image.pixel?, width, height, if_pos, Vec.place]
  simp only [Int32.le_iff_toInt_le, Int32.toInt_zero, Vec.columns, Vec.rows, Int32.toNatClampNeg]
  omega

theorem wordless_image
    (each : ∀ id, ∀ rule ∈ (world.atom id).colorRules,
      ∀ e ∈ [rule.condition, rule.r, rule.g, rule.b], e.ReadsSelf ∧ e.randoms = []) :
    Wordless (s.image world : ExceptT _ (StateM ρ) _) fun image => ∀ p cell,
      s.cell? p = some cell → ∃ color, image.pixel? p = some color ∧ cell.Pixel world color := by
  unfold Snapshot.image
  refine (Wordless.mapM (R := fun p color => ∀ cell, s.cell? p = some cell →
    cell.Pixel world color) fun p _ => ?_).bind fun pixels shown => .pure ?_
  · cases found : s.cell? p with
    | none =>
      rw [Snapshot.isDrawn, found]
      exact .pure nofun
    | some cell =>
      refine (wordless_pixel (each cell.atom) found).mono fun color pixel other same => ?_
      cases same
      exact pixel
  · intro p cell found
    have inside := Snapshot.inBounds_of_cell? found
    obtain ⟨lengths, all⟩ := List.forall₂_iff_get.mp shown
    obtain ⟨listed, here⟩ := List.getElem?_eq_some_iff.mp (Vec.getElem?_positions_place inside)
    have pixel := all _ listed (lengths ▸ listed) cell (by rwa [List.get_eq_getElem, here])
    refine ⟨_, ?_, pixel⟩
    rw [pixel?_eq_getElem? rfl rfl inside]
    exact List.getElem?_eq_getElem _

end Colors

/-! ## Images -/

/-- If no color is drawn at random, equal cells look alike in all images of a world: the pixel of
a cell is the one that its type gives it by the first color rule, in the order of the lines of the
script, whose condition is not zero. No image draws a word. -/
theorem image_shows_cells {source : List Char} {kept : List Script.Line}
    {compiled : Script.Compiled} (read : Script.lines source = .ok kept)
    (h : Script.compile source = .ok compiled) (drawless : compiled.world.ColorsDrawless)
    {ρ ρ' : Type} [WordSource ρ] [WordSource ρ'] {s t : Snapshot} {words left : ρ}
    {words' left' : ρ'} {image image' : Image}
    (drawn : (s.image compiled.world).run.run words = (.ok image, left))
    (drawn' : (t.image compiled.world).run.run words' = (.ok image', left')) :
    (left = words ∧ left' = words') ∧
      (∀ p cell, s.cell? p = some cell →
        ∃ color, image.pixel? p = some color ∧ cell.Pixel compiled.world color) ∧
      (∀ p q cell, s.cell? p = some cell → t.cell? q = some cell →
        image.pixel? p = image'.pixel? q) ∧
      ∀ atom ∈ compiled.world.atoms, List.Forall₂ Script.WrittenIn atom.colorRules
        (Script.colorLinesOf atom.name (kept.map (·.text))) := by
  have each (id : AtomId) : ∀ rule ∈ (compiled.world.atom id).colorRules,
      ∀ e ∈ [rule.condition, rule.r, rule.g, rule.b], e.ReadsSelf ∧ e.randoms = [] := by
    intro rule member e among
    exact ⟨(Script.shaped_atom h id).1.color rule member e among,
      drawless _ (Array.mem_toList_iff.mp (compiled.world.atom_mem id)) rule member e among⟩
  obtain ⟨still, shown⟩ := (wordless_image each).ok drawn
  obtain ⟨still', shown'⟩ := (wordless_image each).ok drawn'
  refine ⟨⟨still, still'⟩, shown, fun p q cell here there => ?_,
    fun atom among => Script.colorRules_of_compile read h among⟩
  obtain ⟨color, found, pixel⟩ := shown p cell here
  obtain ⟨other, found', pixel'⟩ := shown' q cell there
  rw [found, found', pixel.unique pixel']

/-- A script with an atom whose colors name box coordinates, and with another line among them. -/
def embers : List Char :=
  Script.scriptOf (["atom Empty \x7b", "\x7d", "atom Fire \x7b", "section property \x7b",
    "def color dynamic", "def heat 0", "cdef render 1", "\x7d", "section color \x7b",
    "0 && [heat - 3, 4] => 255, [heat], 0", "default fuel 7",
    "1 || [heat - 200, 1] => 120, 0, 7 || [fuel - 3, 4]", "\x7d", "\x7d"].map String.toList)

def ember : Cell := ⟨1, Table.ofList [("heat", 60.0)]⟩

/-- A row with an ember at its right end, and a column with one in the middle. -/
def emberRow : Snapshot := ⟨⟨3, 1⟩, #[{}, {}, ember]⟩
def emberColumn : Snapshot := ⟨⟨1, 3⟩, #[{}, ember, {}]⟩

/-- The ember has the color of the second rule in either image. -/
theorem embers_show_cells : ∃ kept compiled image image', Script.lines embers = .ok kept ∧
    Script.compile embers = .ok compiled ∧ compiled.world.ColorsDrawless ∧
    (emberRow.image compiled.world).run.run (⟨7⟩ : Random.SplitMix) = (.ok image, ⟨7⟩) ∧
    (emberColumn.image compiled.world).run.run (⟨8⟩ : Random.SplitMix) = (.ok image', ⟨8⟩) ∧
    image.pixel? ⟨2, 0⟩ = some ⟨120, 0, 7⟩ ∧ image.pixel? ⟨2, 0⟩ = image'.pixel? ⟨0, 1⟩ ∧
    ember.Pixel compiled.world ⟨120, 0, 7⟩ := by
  have readable : (Script.lines embers).toOption.isSome = true := by decide +kernel
  have compiles : (Script.compile embers).toOption.isSome = true := by decide +kernel
  have drawless : ∀ compiled ∈ (Script.compile embers).toOption,
      compiled.world.ColorsDrawless := by decide +kernel
  have shown : ∀ compiled ∈ (Script.compile embers).toOption,
      ((emberRow.image compiled.world).run.run (⟨7⟩ : Random.SplitMix)).1.toOption =
          some ⟨3, 1, [Color.black, Color.black, ⟨120, 0, 7⟩]⟩ ∧
        ((emberColumn.image compiled.world).run.run (⟨8⟩ : Random.SplitMix)).1.toOption =
          some ⟨1, 3, [Color.black, ⟨120, 0, 7⟩, Color.black]⟩ := by decide +kernel
  obtain ⟨kept, read⟩ := Option.isSome_iff_exists.mp readable
  obtain ⟨compiled, result⟩ := Option.isSome_iff_exists.mp compiles
  have drawless := drawless compiled result
  obtain ⟨row, column⟩ := shown compiled result
  have read := Script.eq_ok_of_toOption read
  have h := Script.eq_ok_of_toOption result
  obtain ⟨left, drawn⟩ : ∃ left,
      (emberRow.image compiled.world).run.run (⟨7⟩ : Random.SplitMix) = (.ok _, left) :=
    ⟨_, Prod.ext (Script.eq_ok_of_toOption row) rfl⟩
  obtain ⟨left', drawn'⟩ : ∃ left,
      (emberColumn.image compiled.world).run.run (⟨8⟩ : Random.SplitMix) = (.ok _, left) :=
    ⟨_, Prod.ext (Script.eq_ok_of_toOption column) rfl⟩
  obtain ⟨⟨still, still'⟩, pixels, alike, -⟩ := image_shows_cells read h drawless drawn drawn'
  obtain ⟨color, found, pixel⟩ := pixels ⟨2, 0⟩ ember rfl
  cases found
  exact ⟨kept, compiled, _, _, read, h, drawless, still ▸ drawn, still' ▸ drawn', rfl,
    alike _ _ ember rfl rfl, pixel⟩

end FallingSand
