import FallingSand.Proofs.Expr.Lookup
import FallingSand.Proofs.Geometry.Bounds
import FallingSand.Proofs.Script.Closure
import FallingSand.Proofs.World.Reach

/-!
# The shape of compiled rules

The anchor of a compiled rule lies in its box, and its match pattern, if it has
one, has a symbol for each cell of the box. What works out the properties of a
new cell looks at that cell alone.
-/

namespace FallingSand

namespace Expr

/-- Offsets that are taken in a mode. -/
def Offsets (mode : Mode) (slots : List Slot) : Prop :=
  ∀ slot ∈ slots, ∃ coordinate, slot.offset = mode.offset coordinate

theorem offsets_add {source : List Char} {mode : Mode} {parts parts' : Parts} {piece : Piece}
    (h : parts.add source mode piece = .ok parts') (offsets : Offsets mode parts.slots) :
    Offsets mode parts'.slots := by
  unfold Parts.add at h
  cases piece with
  | plain text =>
    cases h
    exact offsets
  | unclosed => cases h
  | bracket inner =>
    dsimp only at h
    split at h
    · rename_i token read
      cases h
      unfold Parts.addToken
      cases token with
      | property ref =>
        intro slot member
        rcases List.mem_append.mp member with old | new
        · exact offsets slot old
        · rw [List.mem_singleton] at new
          exact ⟨ref.coordinate, by rw [new]⟩
      | random range =>
        dsimp only
        split <;> exact offsets
    · cases h
    · cases h

theorem offsets_foldlM {source : List Char} {mode : Mode} {pieces : List Piece}
    {parts parts' : Parts} (h : pieces.foldlM (Parts.add source mode) parts = .ok parts')
    (offsets : Offsets mode parts.slots) : Offsets mode parts'.slots := by
  induction pieces generalizing parts with
  | nil =>
    cases h
    exact offsets
  | cons piece rest ih =>
    rw [List.foldlM_cons] at h
    obtain ⟨next, added, h⟩ := Script.bind_eq_ok.mp h
    exact ih h (offsets_add added offsets)

/-- A compiled expression reads where its tokens say. -/
theorem offsets_of_compile {mode : Mode} {text : List Char} {e : Expr}
    (h : compile mode text = .ok e) : Offsets mode e.slots := by
  unfold compile at h
  dsimp only at h
  split at h
  · cases h
  obtain ⟨parts, read, h⟩ := Script.bind_eq_ok.mp h
  split at h
  · cases h
  · cases h
    exact offsets_foldlM read fun slot h => by cases h

theorem readsSelf_of_compile {text : List Char} {e : Expr}
    (h : compile .absolute text = .ok e) : e.ReadsSelf := by
  intro slot member
  obtain ⟨coordinate, offset⟩ := offsets_of_compile h slot member
  exact offset

end Expr

namespace Rule

/-- A rule whose anchor lies in its box and whose match pattern fills the box. -/
structure Shaped (rule : Rule) : Prop where
  anchored : rule.anchor.inBounds rule.size = true
  pattern : ∀ symbols, rule.pattern = some symbols → symbols.size = rule.area

end Rule

/-- An atom whose new cells and whose colors are worked out from a cell alone. -/
structure AtomType.Shaped (atom : AtomType) : Prop where
  init : ∀ entry ∈ atom.init, entry.2.ReadsSelf
  color : ∀ rule ∈ atom.colorRules, ∀ e ∈ [rule.condition, rule.r, rule.g, rule.b], e.ReadsSelf

theorem AtomType.Shaped.change {part : Option Script.Part} {line : List Char}
    {atom atom' : AtomType} (h : Script.AtomChange part line atom atom') (shaped : atom.Shaped) :
    atom'.Shaped := by
  cases h with
  | init name compiled =>
    refine ⟨?_, shaped.color⟩
    intro entry member
    rcases List.mem_append.mp member with old | new
    · exact shaped.init entry old
    · rw [List.mem_singleton] at new
      rw [new]
      exact Expr.readsSelf_of_compile compiled
  | colorRule _ written =>
    refine ⟨shaped.init, ?_⟩
    intro other member e he
    rcases List.mem_append.mp member with old | new
    · exact shaped.color other old e he
    · rw [List.mem_singleton] at new
      subst new
      obtain ⟨text, compiled⟩ := written.compiled e he
      exact Expr.readsSelf_of_compile compiled
  | color | key | constant | property | definition | extension =>
    exact ⟨shaped.init, shaped.color⟩

namespace Script

/-- A draft whose rule is shaped, up to the rows that an open match pattern lacks. -/
structure Draft.Shaped (d : Draft) : Prop where
  anchored : d.rule.anchor.inBounds d.rule.size = true
  inPattern : 0 < d.rowsLeft → d.patterned = true ∧ d.phase ≠ .between
  rows : d.phase = .matching → d.patterned = true → ∃ symbols,
    d.rule.pattern = some symbols ∧
      symbols.size + d.rowsLeft * d.rule.width.toNat = d.rule.area
  noRows : d.phase = .matching → d.patterned = false → d.rule.pattern = none
  full : d.phase ≠ .matching → ∀ symbols, d.rule.pattern = some symbols →
    symbols.size = d.rule.area

/-- The anchor that a match block gives lies in the box. -/
theorem anchor_inBounds {x y width height : UInt8} (hx : x < width) (hy : y < height) :
    (⟨Int32.ofNat x.toNat, Int32.ofNat y.toNat⟩ : Vec).inBounds
      ⟨Int32.ofNat width.toNat, Int32.ofNat height.toNat⟩ = true := by
  rw [UInt8.lt_iff_toNat_lt] at hx hy
  have small (n : UInt8) : (Int32.ofNat n.toNat).toInt = n.toNat :=
    Int32.toInt_ofNat_of_lt (by have := n.toNat_lt; omega)
  rw [Vec.inBounds_iff]
  simp only [small]
  omega

/-- A row more in a pattern, and a row less that it lacks. -/
theorem size_append_row {α : Type} {symbols : Array α} {row : List α} {width left area : Nat}
    (rows : 0 < left) (full : row.length = width) (size : symbols.size + left * width = area) :
    (symbols ++ row).size + (left - 1) * width = area := by
  obtain ⟨rest, rfl⟩ : ∃ rest, left = rest + 1 := ⟨left - 1, by omega⟩
  rw [Nat.succ_mul] at size
  rw [← Array.length_toList, Array.toList_appendList, List.length_append, full,
    Array.length_toList, Nat.add_sub_cancel]
  omega

namespace Draft.Shaped

variable {d d' : Draft}

theorem row {line : List Char} (rows : 0 < d.rowsLeft) (h : d.patternRow line = .ok d')
    (shaped : d.Shaped) : d'.Shaped := by
  obtain ⟨patterned, inside⟩ := shaped.inPattern rows
  obtain ⟨width, ⟨phase, rfl⟩ | ⟨phase, rfl⟩⟩ := patternRow_ok h
  · exact ⟨shaped.anchored, fun _ => ⟨patterned, inside⟩,
      fun matching => by simp [phase] at matching, fun matching => by simp [phase] at matching,
      shaped.full⟩
  -- between the blocks no pattern is open, so the row belongs to a match pattern
  have matching : d.phase = .matching := by
    cases found : d.phase with
    | between => exact absurd found inside
    | effect => exact absurd found phase
    | matching => rfl
  obtain ⟨symbols, pattern, size⟩ := shaped.rows matching patterned
  refine ⟨shaped.anchored, fun _ => ⟨patterned, inside⟩, ?_, ?_,
    fun other => absurd matching other⟩
  · intro _ _
    refine ⟨symbols ++ (Text.words line).map MatchSymbol.ofToken, by rw [pattern]; rfl, ?_⟩
    exact size_append_row rows (by rw [List.length_map, width]) size
  · intro _ none
    rw [patterned] at none
    cases none

theorem pattern (inside : d.phase ≠ .between)
    (h : d.beginPattern = .ok d') (shaped : d.Shaped) : d'.Shaped := by
  obtain ⟨unpatterned, ⟨phase, rfl⟩ | ⟨phase, rfl⟩⟩ := beginPattern_ok h
  · exact ⟨shaped.anchored, fun _ => ⟨rfl, inside⟩, fun matching => by simp [phase] at matching,
      fun matching => by simp [phase] at matching, shaped.full⟩
  have matching : d.phase = .matching := by
    cases found : d.phase with
    | between => exact absurd found inside
    | effect => exact absurd found phase
    | matching => rfl
  refine ⟨shaped.anchored, fun _ => ⟨rfl, inside⟩, fun _ _ => ⟨#[], rfl, ?_⟩,
    fun _ none => (nomatch none), fun other => absurd matching other⟩
  show 0 + d.rule.height.toNat * d.rule.width.toNat = d.rule.area
  rw [Nat.zero_add, Nat.mul_comm, Rule.area]

/-- What a line of a block leaves of the box and of the pattern keeps the shape. -/
theorem of_rule {rule : Rule} (shaped : d.Shaped) (anchor : rule.anchor = d.rule.anchor)
    (width : rule.width = d.rule.width) (height : rule.height = d.rule.height)
    (pattern : rule.pattern = d.rule.pattern) : Draft.Shaped { d with rule } := by
  have size : rule.size = d.rule.size := by rw [Rule.size, width, height, Rule.size]
  have area : rule.area = d.rule.area := by rw [Rule.area, width, height, Rule.area]
  refine ⟨?_, shaped.inPattern, ?_, ?_, ?_⟩
  · rw [anchor, size]
    exact shaped.anchored
  · rw [pattern, width, area]
    exact shaped.rows
  · rw [pattern]
    exact shaped.noRows
  · rw [pattern, area]
    exact shaped.full

theorem matchLine {line : List Char} (h : d.matchLine line = .ok d') (shaped : d.Shaped) :
    d'.Shaped := by
  obtain ⟨text, condition, -, rfl⟩ := matchLine_ok h
  exact shaped.of_rule rfl rfl rfl rfl

theorem effectLine {inRuleset : Bool} {line : List Char}
    (h : d.effectLine inRuleset line = .ok d') (shaped : d.Shaped) : d'.Shaped := by
  obtain ⟨rule, change, rfl⟩ := effectLine_ok h
  cases change <;> exact shaped.of_rule rfl rfl rfl rfl

theorem endMatch (rows : d.rowsLeft = 0) (matching : d.phase = .matching) (shaped : d.Shaped) :
    Draft.Shaped { d with phase := .between, patterned := false } := by
  refine ⟨shaped.anchored, ?_, fun h => (nomatch h), fun h => (nomatch h), ?_⟩
  · intro left
    dsimp only at left
    omega
  · intro _ symbols found
    cases patterned : d.patterned with
    | true =>
      obtain ⟨symbols', found', size⟩ := shaped.rows matching patterned
      rw [found'] at found
      cases found
      rw [rows] at size
      simpa using size
    | false =>
      rw [shaped.noRows matching patterned] at found
      cases found

theorem beginEffect (rows : d.rowsLeft = 0) (between : d.phase = .between) (p : Float)
    (shaped : d.Shaped) : Draft.Shaped { d with
      rule := { d.rule with probability := p }, phase := .effect, patterned := false } := by
  refine ⟨shaped.anchored, ?_, fun h => (nomatch h), fun h => (nomatch h),
    fun _ => shaped.full (by rw [between]; decide)⟩
  intro left
  dsimp only at left
  omega

end Draft.Shaped

/-- Lines keep the shape of atoms, rules and drafts. -/
theorem shapedClosure : Closure AtomType.Shaped Rule.Shaped Draft.Shaped where
  newAtom _ _ _ _ := ⟨fun _ h => (nomatch h), fun _ h => (nomatch h)⟩
  change h shaped := shaped.change h
  addRules _ _ shaped := ⟨shaped.init, shaped.color⟩
  number _ shaped := ⟨shaped.anchored, shaped.pattern⟩
  copy _ shaped := ⟨shaped.anchored, shaped.pattern⟩
  beginMatch _ hx hy := ⟨anchor_inBounds hx hy, fun h => (nomatch h), fun _ h => (nomatch h),
    fun _ _ => rfl, fun _ _ h => (nomatch h)⟩
  row rows h shaped := shaped.row rows h
  pattern _ inside h shaped := shaped.pattern inside h
  matchLine _ _ h shaped := shaped.matchLine h
  effectLine _ _ h shaped := shaped.effectLine h
  endMatch rows matching shaped := shaped.endMatch rows matching
  beginEffect rows between _ shaped := shaped.beginEffect rows between _
  endEffect _ effect _ shaped :=
    ⟨shaped.anchored, shaped.full (by rw [effect]; decide)⟩
  repeatMatch shaped := ⟨shaped.anchored, fun h => (nomatch h), fun h => (nomatch h),
    fun h => (nomatch h), fun _ => shaped.pattern⟩
  repeatEffect _ between _ shaped _ :=
    ⟨shaped.anchored, shaped.full (by rw [between]; decide)⟩

variable {source : List Char} {compiled : Compiled}

theorem shaped_of_compile (h : compile source = .ok compiled) {n : Nat} {atom : AtomType}
    (found : compiled.world.atoms[n]? = some atom) :
    AtomHolds AtomType.Shaped Rule.Shaped n atom :=
  shapedClosure.of_compile h found

/-- Every type that can be asked for is shaped, and so are its rules. -/
theorem shaped_atom (h : compile source = .ok compiled) (id : AtomId) :
    (compiled.world.atom id).Shaped ∧ ∀ rule ∈ (compiled.world.atom id).allRules, rule.Shaped := by
  obtain ⟨n, bound, same⟩ :=
    Array.mem_iff_getElem.mp (Array.mem_toList_iff.mp (compiled.world.atom_mem id))
  have holds := shaped_of_compile h (n := n) (by rw [Array.getElem?_eq_getElem bound, same])
  exact ⟨holds.own, holds.rules⟩

/-! ## A script -/

/-- A script with a type that sinks through empty cells. -/
def sinking : List Char :=
  ["default weight 1",
   "atom Empty \x7b", "\x7d",
   "atom Sand \x7b", "section update \x7b",
   "match (0, 0, 1, 2) sym(x) \x7b", "pattern", "x", "_", "eval [weight]", "\x7d",
   "-> \x7b", "def under = (0, 1)", "pattern", "under", "x", "\x7d",
   "\x7d", "\x7d"].flatMap fun line => line.toList ++ ['\n']

theorem sinking_compiles : (compile sinking).toOption.isSome = true := by decide +kernel

/-- What the script compiles to. -/
def sunk : Compiled := (compile sinking).toOption.get sinking_compiles

theorem eq_ok_of_toOption {ε α : Type} {m : Except ε α} {x : α} (h : m.toOption = some x) :
    m = .ok x := by
  cases m with
  | error e => cases h
  | ok y =>
    cases h
    rfl

theorem compile_sinking : compile sinking = .ok sunk :=
  eq_ok_of_toOption (Option.some_get sinking_compiles).symm

theorem sunk_member : sunk.world.atom 1 ∈ sunk.world.atoms :=
  Array.mem_toList_iff.mp (sunk.world.atom_mem 1)

theorem exists_sunk_rule : ∃ rule, rule ∈ (sunk.world.atom 1).allRules := by
  obtain ⟨rule, first⟩ : ∃ rule, (sunk.world.atom 1).allRules[0]? = some rule :=
    Option.isSome_iff_exists.mp (by decide +kernel)
  exact ⟨rule, List.mem_of_getElem? first⟩

end Script

end FallingSand
