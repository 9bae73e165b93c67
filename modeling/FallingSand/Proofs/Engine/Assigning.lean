import FallingSand.Proofs.Engine.Material
import FallingSand.Proofs.Script.References
import FallingSand.Proofs.Script.Shape

/-!
# Filling a box at once

The cells of a box are filled one after the other, while some of them are copied from what
was there before and others draw words for themselves. What a cell becomes is settled by its
symbol, by the anchor and the captured cells and by the words that are left when its turn
comes (`settle`). The board has no say in it, nor in how many words each turn takes. So the
cells are filled as if all at once.
-/

namespace FallingSand

namespace Engine

open FallingSand.Random (WordSource)

variable {ρ : Type} [WordSource ρ]

section

variable (world : World) (rule : Rule) (size : Vec) (anchor : Cell) (captured : Table Cell)

/-! ## One cell -/

/-- A new cell of a type is worked out from some words, of which some are left. -/
def Makes (id : AtomId) (words : ρ) (made : Cell) (left : ρ) : Prop :=
  workOut world (world.atom id).init (world.atom id).newCell words = (.ok (), made, left)

/-- The type of which a symbol makes a new cell. -/
def madeOf? : EffectSymbol → Option AtomId
  | .empty => some world.empty
  | .place name => if (captured.get? name).isNone then world.placeable? name else none
  | _ => none

/-- The cell that a symbol copies. -/
def copied? : EffectSymbol → Option Cell
  | .anchor => some anchor
  | .place name => captured.get? name
  | _ => none

/-- How filling a cell by a symbol ends, what becomes of the cell, and the words that are left. -/
def settle (symbol : EffectSymbol) (words : ρ) : Except Error Unit × Fill × ρ :=
  match madeOf? world captured symbol with
  | some id =>
    let made := workOut world (world.atom id).init (world.atom id).newCell words
    (made.1, .write made.2.1, made.2.2)
  | none =>
    match copied? anchor captured symbol with
    | some cell => (.ok (), .write cell, words)
    | none => (.ok (), .keep, words)

/-- The same for a cell of the box, which may lie outside the grid. -/
def settleCell (entry : Vec × Nat × Nat) (words : ρ) : Except Error Unit × Fill × ρ :=
  match rule.effectSymbol? entry.2.1 entry.2.2 with
  | none => (.ok (), .keep, words)
  | some symbol =>
    if entry.1.inBounds size then settle world anchor captured symbol words
    else (.ok (), .keep, words)

end

variable {world : World} {rule : Rule} {size : Vec} {anchor : Cell} {captured : Table Cell}
  {s : Snapshot} {words : ρ}

/-- Only new cells take words, so it does not matter what is at the anchor. -/
theorem settleCell_left (anchor other : Cell) (entry : Vec × Nat × Nat) (words : ρ) :
    (settleCell world rule size anchor captured entry words).2.2 =
      (settleCell world rule size other captured entry words).2.2 := by
  have same (symbol : EffectSymbol) : (settle world anchor captured symbol words).2.2 =
      (settle world other captured symbol words).2.2 := by
    unfold settle
    cases madeOf? world captured symbol with
    | some id => rfl
    | none => cases symbol <;> rfl
  unfold settleCell
  cases rule.effectSymbol? entry.2.1 entry.2.2 with
  | none => rfl
  | some symbol =>
    dsimp only
    split
    · exact same symbol
    · rfl

theorem settleCell_outside {entry : Vec × Nat × Nat} (outside : entry.1.inBounds size = false) :
    (settleCell world rule size anchor captured entry words).2.1 = .keep := by
  unfold settleCell
  cases rule.effectSymbol? entry.2.1 entry.2.2 with
  | none => rfl
  | some symbol => rw [outside]; rfl

section Run

variable (shaped : ∀ id, (world.atom id).Shaped) (full : s.Full)

include shaped full

theorem exec_place {p : Vec} (inside : p.inBounds s.size = true) (symbol : EffectSymbol) :
    exec (place world anchor captured symbol p) ⟨s, words⟩ =
      let settled := settle world anchor captured symbol words
      (settled.1, ⟨settled.2.1.on s p, settled.2.2⟩) := by
  have retyped (id : AtomId) : exec (retype world p id) ⟨s, words⟩ =
      let made := workOut world (world.atom id).init (world.atom id).newCell words
      (made.1, ⟨s.write p made.2.1, made.2.2⟩) :=
    exec_makeCell_workOut (shaped id).init _ full inside words
  unfold place settle
  cases symbol with
  | keep => rfl
  | anchor => exact exec_write_full full inside anchor words
  | empty => exact retyped world.empty
  | place name =>
    dsimp only [madeOf?, copied?]
    cases captured.get? name with
    | some cell => exact exec_write_full full inside cell words
    | none =>
      cases world.placeable? name with
      | some id => exact retyped id
      | none => rfl

theorem exec_fillCell (entry : Vec × Nat × Nat) :
    exec (fillCell world rule anchor captured entry) ⟨s, words⟩ =
      let settled := settleCell world rule s.size anchor captured entry words
      (settled.1, ⟨settled.2.1.on s entry.1, settled.2.2⟩) := by
  unfold fillCell settleCell
  cases rule.effectSymbol? entry.2.1 entry.2.2 with
  | none => rfl
  | some symbol =>
    dsimp only
    rw [exec_bind, exec_inGrid]
    dsimp only
    rw [show Board.inGrid s entry.1 = entry.1.inBounds s.size from rfl]
    cases inside : entry.1.inBounds s.size with
    | false => rfl
    | true => exact exec_place shaped full inside symbol

end Run

/-! ## All cells -/

/-- Each of some different cells becomes what is settled at its turn, and the turns are the same
for every board of a size. -/
theorem exec_fillCells (rule : Rule) (size : Vec) (captured : Table Cell)
    (shaped : ∀ id, (world.atom id).Shaped) {l : List (Vec × Nat × Nat)}
    (positions : (l.map Prod.fst).Nodup) (coordinates : (l.map Prod.snd).Nodup) (words : ρ) :
    ∃ turn : Nat × Nat → ρ, ∀ (s : Snapshot) (anchor : Cell) (after : State Snapshot ρ),
      s.Full → s.size = size →
      exec (l.forM (fillCell world rule anchor captured)) ⟨s, words⟩ = (.ok (), after) →
      after.board.Full ∧ after.board.size = size ∧
        (∀ q ∉ l.map Prod.fst, after.board.cell? q = s.cell? q) ∧
        ∀ entry ∈ l,
          let settled := settleCell world rule size anchor captured entry (turn entry.2)
          settled.1 = .ok () ∧
            after.board.cell? entry.1 = (settled.2.1.on s entry.1).cell? entry.1 := by
  induction l generalizing words with
  | nil =>
    refine ⟨fun _ => words, ?_⟩
    rintro s anchor _ full size ⟨⟩
    exact ⟨full, size, fun _ _ => rfl, fun _ member => nomatch member⟩
  | cons head rest ih =>
    rw [List.map_cons, List.nodup_cons] at positions coordinates
    -- Any anchor says how many words the first turn takes.
    obtain ⟨turn, assigned⟩ := ih positions.2 coordinates.2
      (settleCell world rule size default captured head words).2.2
    refine ⟨Function.update turn head.2 words, ?_⟩
    intro s anchor after full hs h
    obtain ⟨⟨⟩, mid, first, later⟩ := exec_bind_ok h
    rw [exec_fillCell shaped full, hs] at first
    obtain ⟨ended, rfl⟩ := Prod.mk.inj first
    rw [settleCell_left anchor default] at later
    set fill := (settleCell world rule size anchor captured head words).2.1 with filled
    have midFull := fill.full_on full head.1
    have midSize : (fill.on s head.1).size = size := by rw [Fill.size_on, hs]
    have elsewhere {q : Vec} (different : q ≠ head.1) :
        (fill.on s head.1).cell? q = s.cell? q := by
      cases inside : head.1.inBounds s.size with
      | true => exact cell?_on_of_ne full fill inside different
      | false =>
        rw [filled, settleCell_outside (hs ▸ inside)]
        rfl
    obtain ⟨afterFull, afterSize, untouched, touched⟩ :=
      assigned (fill.on s head.1) anchor after midFull midSize later
    refine ⟨afterFull, afterSize, ?_, ?_⟩
    · intro q other
      rw [List.map_cons, List.mem_cons, not_or] at other
      rw [untouched q other.2, elsewhere other.1]
    · intro entry member
      rcases List.mem_cons.mp member with rfl | member
      · rw [Function.update_self]
        exact ⟨ended, untouched _ positions.1⟩
      · have later : entry.2 ≠ head.2 := fun same =>
          coordinates.1 (same ▸ List.mem_map_of_mem member)
        have different : entry.1 ≠ head.1 := fun same =>
          positions.1 (same ▸ List.mem_map_of_mem member)
        rw [Function.update_of_ne later]
        obtain ⟨ok, cell⟩ := touched entry member
        refine ⟨ok, cell.trans ?_⟩
        cases inside : entry.1.inBounds size with
        | true =>
          rw [cell?_on_self midFull (midSize.symm ▸ inside), cell?_on_self full (hs.symm ▸ inside),
            elsewhere different]
        | false =>
          rw [settleCell_outside inside]
          exact elsewhere different

/-- The anchor is looked at before any cell is filled. -/
theorem exec_fillBox_ok {target : Vec} {o : Orientation} {after : State Snapshot ρ}
    (h : exec (fillBox world rule target o captured) ⟨s, words⟩ = (.ok (), after)) :
    ∃ anchor, s.cell? target = some anchor ∧
      exec ((o.box rule target).forM (fillCell world rule anchor captured)) ⟨s, words⟩ =
        (.ok (), after) := by
  rw [fillBox_eq] at h
  obtain ⟨anchor, between, looked, filled⟩ := exec_bind_ok h
  obtain ⟨found, rfl⟩ := exec_read_ok looked
  exact ⟨anchor, found, filled⟩

/-! ## What the symbols say -/

/-- What is at a position of the grid after the box is filled, by the symbol of the position:
what was there, the anchor, a captured cell, or a new cell that is worked out from some words.
What is neither captured nor an atom is bound by the rule; if all its sources are outside the
grid, what was there stays. -/
def Assigned (world : World) (rule : Rule) (anchor : Cell) (captured : Table Cell)
    (outside : Vec → Prop) (words : ρ) (before after : Option Cell) : Option EffectSymbol → Prop
  | none => after = before
  | some .keep => after = before
  | some .anchor => after = some anchor
  | some .empty => ∃ made left, Makes world world.empty words made left ∧ after = some made
  | some (.place name) =>
    match captured.get? name, world.placeable? name with
    | some cell, _ => after = some cell
    | none, some id => ∃ made left, Makes world id words made left ∧ after = some made
    | none, none => name ∈ rule.boundSymbols ∧
        ((∀ offset, .bind name offset ∈ rule.steps → outside offset) → after = before)

theorem assigned_settle {p : Vec} (full : s.Full) (inside : p.inBounds s.size = true)
    {symbol : EffectSymbol}
    (bound : ∀ name, symbol = .place name → world.placeable? name = none →
      name ∈ rule.boundSymbols)
    (ended : (settle world anchor captured symbol words).1 = .ok ()) (outside : Vec → Prop) :
    Assigned world rule anchor captured outside words (s.cell? p)
      (((settle world anchor captured symbol words).2.1.on s p).cell? p) (some symbol) := by
  rw [cell?_on_self full inside]
  -- A new cell is worked out to the end.
  have makes (id : AtomId)
      (ended : (workOut world (world.atom id).init (world.atom id).newCell words).1 = .ok ()) :
      ∃ made left, Makes world id words made left ∧
        some (workOut world (world.atom id).init (world.atom id).newCell words).2.1 = some made :=
    ⟨_, _, Prod.ext ended rfl, rfl⟩
  cases symbol with
  | keep => rfl
  | anchor => rfl
  | empty => exact makes world.empty ended
  | place name =>
    unfold settle madeOf? copied? Assigned at *
    cases found : captured.get? name with
    | some cell => simp [found]
    | none =>
      cases atom : world.placeable? name with
      | some id =>
        simp only [found, atom] at ended ⊢
        exact makes id ended
      | none => simp [found, atom, bound name rfl atom]

end Engine

open Engine
open FallingSand.Random (WordSource)

/-- Filling a box assigns all its cells at once, each by its symbol. What a new cell is worked
out from depends on the words and not on the board. -/
theorem fillBox_assigns {source : List Char} {compiled : Script.Compiled}
    (h : Script.compile source = .ok compiled) {atom : AtomType}
    (member : atom ∈ compiled.world.atoms) {rule : Rule} (among : rule ∈ atom.allRules)
    (size target : Vec) (o : Orientation) (captured : Table Cell) {ρ : Type} [WordSource ρ]
    (words : ρ) :
    ∃ turn : Nat × Nat → ρ, ∀ (s : Snapshot) (after : State Snapshot ρ),
      s.Full → s.size = size →
      (fillBox compiled.world rule target o captured).run.run ⟨s, words⟩ = (.ok (), after) →
      after.board.size = size ∧ ∃ anchor, s.cell? target = some anchor ∧
        (∀ column row, column < rule.width.toNat → row < rule.height.toNat →
          let p := target + o.apply (Vec.ofNat column row - rule.anchor)
          p.inBounds size = true →
            Assigned compiled.world rule anchor captured
              (fun offset => (target + o.apply offset).inBounds size = false)
              (turn (column, row)) (s.cell? p) (after.board.cell? p)
              (rule.effectSymbol? column row)) ∧
        ∀ q, (∀ column row, column < rule.width.toNat → row < rule.height.toNat →
            q ≠ target + o.apply (Vec.ofNat column row - rule.anchor)) →
          after.board.cell? q = s.cell? q := by
  have shaped (id : AtomId) : (compiled.world.atom id).Shaped := (Script.shaped_atom h id).1
  obtain ⟨turn, assigned⟩ := exec_fillCells rule size captured shaped (o.box_nodup rule target)
    (o.box_coordinates_nodup rule target) words
  refine ⟨turn, ?_⟩
  intro s after full hs filled
  obtain ⟨anchor, found, rest⟩ := exec_fillBox_ok filled
  obtain ⟨-, afterSize, untouched, touched⟩ := assigned s anchor after full hs rest
  refine ⟨afterSize, anchor, found, ?_, ?_⟩
  · intro column row wide high p inside
    obtain ⟨ended, cell⟩ :=
      touched (p, column, row) (Orientation.mem_box.mpr ⟨⟨wide, high⟩, rfl⟩)
    unfold settleCell at ended cell
    rw [cell]
    cases written : rule.effectSymbol? column row with
    | none => rfl
    | some symbol =>
      simp only [written, inside, if_true] at ended ⊢
      refine assigned_settle full (hs.symm ▸ inside) ?_ ended _
      rintro name rfl nowhere
      by_contra unbound
      have somewhere := Script.placeable_of_compile h member among
        (Array.mem_of_getElem? written) unbound
      rw [nowhere] at somewhere
      cases somewhere
  · intro q other
    refine untouched q ?_
    intro member
    obtain ⟨⟨p, column, row⟩, boxed, rfl⟩ := List.mem_map.mp member
    obtain ⟨⟨wide, high⟩, here⟩ := Orientation.mem_box.mp boxed
    exact other column row wide high here

/-- The empty cell under the first grain of the pile, as the rule captures it. -/
def Script.sunkUnder : Table Cell := Table.empty.insert "under" {}

theorem sunk_fillBox_assigns : ∃ rule ∈ (Script.sunk.world.atom 1).allRules,
    ∃ after : State Snapshot Random.SplitMix,
      (fillBox Script.sunk.world rule ⟨0, 0⟩ .identity Script.sunkUnder).run.run
        ⟨Snapshot.pile, ⟨7⟩⟩ = (.ok (), after) ∧
      ∃ anchor, Snapshot.pile.cell? ⟨0, 0⟩ = some anchor ∧ ∃ words : Random.SplitMix,
        Assigned Script.sunk.world rule anchor Script.sunkUnder
          (fun offset => ((⟨0, 0⟩ : Vec) + Orientation.identity.apply offset).inBounds
            Snapshot.pile.size = false)
          words (Snapshot.pile.cell? ⟨0, 1⟩) (after.board.cell? ⟨0, 1⟩)
          (rule.effectSymbol? 0 1) := by
  obtain ⟨rule, among⟩ := Script.exists_sunk_rule
  have sinks : ∀ rule ∈ (Script.sunk.world.atom 1).allRules,
      rule.width = 1 ∧ rule.height = 2 ∧ rule.anchor = ⟨0, 0⟩ ∧
      ((fillBox Script.sunk.world rule ⟨0, 0⟩ .identity Script.sunkUnder).run.run
        (⟨Snapshot.pile, ⟨7⟩⟩ : State Snapshot Random.SplitMix)).1.toOption = some () := by
    decide +kernel
  obtain ⟨width, height, corner, succeeds⟩ := sinks rule among
  obtain ⟨turn, assigned⟩ := fillBox_assigns Script.compile_sinking Script.sunk_member among
    Snapshot.pile.size ⟨0, 0⟩ .identity Script.sunkUnder (⟨7⟩ : Random.SplitMix)
  obtain ⟨after, filled⟩ : ∃ after,
      (fillBox Script.sunk.world rule ⟨0, 0⟩ .identity Script.sunkUnder).run.run
        (⟨Snapshot.pile, ⟨7⟩⟩ : State Snapshot Random.SplitMix) = (.ok (), after) :=
    ⟨_, Prod.ext (Script.eq_ok_of_toOption succeeds) rfl⟩
  obtain ⟨-, anchor, found, cells, -⟩ := assigned Snapshot.pile after rfl rfl filled
  have below := cells 0 1 (by rw [width]; decide) (by rw [height]; decide)
  rw [corner] at below
  exact ⟨rule, among, after, filled, anchor, found, turn (0, 1), below (by decide)⟩

/-! ## A symbol that is nothing -/

/-- A script with a type that becomes what is beside it. -/
def Script.overhanging : List Char :=
  ["atom A \x7b", "section update \x7b",
   "match (0, 0, 2, 1) \x7b", "\x7d",
   "-> \x7b", "def a = (1, 0)", "pattern", "a /", "\x7d",
   "\x7d", "\x7d"].flatMap fun line => line.toList ++ ['\n']

theorem Script.overhanging_compiles : (compile overhanging).toOption.isSome = true := by
  decide +kernel

def Script.overhung : Compiled := (compile overhanging).toOption.get overhanging_compiles

theorem Script.compile_overhanging : compile overhanging = .ok overhung :=
  eq_ok_of_toOption (Option.some_get overhanging_compiles).symm

/-- A single cell, with a property that no new cell has. -/
def Snapshot.alone : Snapshot := ⟨⟨1, 1⟩, #[⟨0, .ofList [("heat", 5)]⟩]⟩

/-- At the border of the grid the rule captures nothing and finds no atom of the name. The cell
stays, which no new cell of any type could be. -/
theorem overhung_keeps : Script.compile Script.overhanging = .ok Script.overhung ∧
    ∃ rule ∈ (Script.overhung.world.atom 0).allRules,
      ∃ after : State Snapshot Random.SplitMix,
        (fillBox Script.overhung.world rule ⟨0, 0⟩ .identity {}).run.run
          ⟨Snapshot.alone, ⟨7⟩⟩ = (.ok (), after) ∧
        (⟨0, 0⟩ : Vec) + Orientation.identity.apply (Vec.ofNat 0 0 - rule.anchor) = ⟨0, 0⟩ ∧
        rule.effectSymbol? 0 0 = some (.place "a") ∧
        ∀ id (words left : Random.SplitMix) made, Makes Script.overhung.world id words made left →
          after.board.cell? ⟨0, 0⟩ ≠ some made := by
  obtain ⟨rule, first⟩ : ∃ rule, (Script.overhung.world.atom 0).allRules[0]? = some rule :=
    Option.isSome_iff_exists.mp (by decide +kernel)
  have among := List.mem_of_getElem? first
  have stays : ∀ rule ∈ (Script.overhung.world.atom 0).allRules,
      (⟨0, 0⟩ : Vec) + Orientation.identity.apply (Vec.ofNat 0 0 - rule.anchor) = ⟨0, 0⟩ ∧
      rule.effectSymbol? 0 0 = some (.place "a") ∧
      let ended := (fillBox Script.overhung.world rule ⟨0, 0⟩ .identity {}).run.run
        (⟨Snapshot.alone, ⟨7⟩⟩ : State Snapshot Random.SplitMix)
      ended.1.toOption = some () ∧
        (ended.2.board.cell? ⟨0, 0⟩).map (·.properties.entries.length) = some 1 := by
    decide +kernel
  obtain ⟨here, symbol, succeeds, kept⟩ := stays rule among
  have bare : ∀ atom ∈ Script.overhung.world.atoms.toList,
      atom.init.isEmpty ∧ atom.properties.entries.length = 0 := by
    decide +kernel
  refine ⟨Script.compile_overhanging, rule, among, _,
    Prod.ext (Script.eq_ok_of_toOption succeeds) rfl, here, symbol, ?_⟩
  intro id words left made makes found
  obtain ⟨uninitialized, blank⟩ := bare _ (Script.overhung.world.atom_mem id)
  rw [Makes, List.isEmpty_iff.mp uninitialized] at makes
  cases makes
  rw [found] at kept
  cases blank.symm.trans (Option.some_inj.mp kept)

end FallingSand
