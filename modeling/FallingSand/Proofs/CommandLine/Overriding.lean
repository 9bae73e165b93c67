import FallingSand.CommandLine.Session
import FallingSand.Proofs.Number.Numerals

/-!
# Settings of the command line

A configuration is made of the settings that arguments give, of those of a file or of the
environment, and of defaults for all others. It can be used if there are cells, tiles and workers.
That is judged twice: of what the file or the environment makes of the defaults, and again with
the settings of the arguments. Beyond the first judgement, a setting that the arguments override
makes no difference (`loadConfig_overriding`).
-/

namespace FallingSand.CommandLine

open FallingSand.Number (IsUnsigned readNatural?_eq_some_iff)
open FallingSand.Text (trim)

/-! ## Settings -/

/-- Settings of which each may be given or not. -/
structure Settings where
  width : Option UInt32 := none
  height : Option UInt32 := none
  tileSize : Option UInt32 := none
  workers : Option UInt64 := none
  delay : Option UInt64 := none
  seed : Option UInt64 := none
  deriving DecidableEq

namespace Settings

/-- Settings that count where they are given, and others elsewhere. -/
def or (first second : Settings) : Settings where
  width := first.width.or second.width
  height := first.height.or second.height
  tileSize := first.tileSize.or second.tileSize
  workers := first.workers.or second.workers
  delay := first.delay.or second.delay
  seed := first.seed.or second.seed

/-- The configuration that settings make of defaults. -/
def applied (s : Settings) (c : Config) : Config where
  width := s.width.getD c.width
  height := s.height.getD c.height
  tileSize := s.tileSize.getD c.tileSize
  workers := s.workers.getD c.workers
  delay := s.delay.getD c.delay
  seed := s.seed.or c.seed

theorem applied_or (first second : Settings) (c : Config) :
    (first.or second).applied c = first.applied (second.applied c) := by
  simp [applied, or, Option.getD_or, Option.or_assoc]

end Settings

/-- The settings that arguments give. -/
def Arguments.settings (a : Arguments) : Settings where
  width := a.width
  height := a.height
  tileSize := a.tileSize
  workers := a.workers
  delay := a.delay
  seed := a.seed

/-- Whether there are cells, tiles and workers. -/
structure Usable (c : Config) : Prop where
  width : 1 ≤ c.width
  height : 1 ≤ c.height
  tileSize : 1 ≤ c.tileSize
  workers : 1 ≤ c.workers

theorem validate_eq_ok_iff {c d : Config} : c.validate = .ok d ↔ Usable c ∧ d = c := by
  have words32 (w : UInt32) : 1 ≤ w ↔ w ≠ 0 := by
    rw [UInt32.le_iff_toNat_le, Ne, ← UInt32.toNat_inj]
    exact Nat.one_le_iff_ne_zero
  have words64 (w : UInt64) : 1 ≤ w ↔ w ≠ 0 := by
    rw [UInt64.le_iff_toNat_le, Ne, ← UInt64.toNat_inj]
    exact Nat.one_le_iff_ne_zero
  have usable : Usable c ↔ c.width ≠ 0 ∧ c.height ≠ 0 ∧ c.tileSize ≠ 0 ∧ c.workers ≠ 0 := by
    simp only [← words32, ← words64]
    exact ⟨fun ⟨w, h, t, n⟩ => ⟨w, h, t, n⟩, fun ⟨w, h, t, n⟩ => ⟨w, h, t, n⟩⟩
  rw [usable]
  unfold Config.validate Config.flaw?
  by_cases w : c.width = 0 <;> by_cases h : c.height = 0 <;> by_cases t : c.tileSize = 0 <;>
    by_cases n : c.workers = 0 <;> simp [w, h, t, n, eq_comm]

/-! ## Numbers of a width -/

theorem words32_le (w : Option UInt32) : ∀ n ∈ w.map UInt32.toNat, n ≤ UInt32.size - 1 := by
  intro n member
  obtain ⟨word, -, rfl⟩ := Option.map_eq_some_iff.mp member
  exact Nat.le_sub_one_of_lt word.toNat_lt_size

theorem words64_le (w : Option UInt64) : ∀ n ∈ w.map UInt64.toNat, n ≤ UInt64.size - 1 := by
  intro n member
  obtain ⟨word, -, rfl⟩ := Option.map_eq_some_iff.mp member
  exact Nat.le_sub_one_of_lt word.toNat_lt_size

theorem map_ofNat_words32 (w : Option UInt32) : (w.map UInt32.toNat).map UInt32.ofNat = w := by
  cases w <;> simp

theorem map_ofNat_words64 (w : Option UInt64) : (w.map UInt64.toNat).map UInt64.ofNat = w := by
  cases w <;> simp

/-! ## The environment -/

/-- Whether a variable that may be set holds a number that may be given. -/
inductive Holds : Option String → Option Nat → Prop
  | unset : Holds none none
  | set {value : String} {n : Nat} (numeral : IsUnsigned n (trim value.toList)) :
      Holds (some value) (some n)

/-- Whether the variables of an environment give settings and no others. -/
structure Settings.InEnvironment (s : Settings) (env : Config.Environment) : Prop where
  width : Holds (env "SANDLANG_WIDTH") (s.width.map UInt32.toNat)
  height : Holds (env "SANDLANG_HEIGHT") (s.height.map UInt32.toNat)
  tileSize : Holds (env "SANDLANG_TILE_SIZE") (s.tileSize.map UInt32.toNat)
  workers : Holds (env "SANDLANG_WORKERS") (s.workers.map UInt64.toNat)
  delay : Holds (env "SANDLANG_UPDATE_DELAY_NANOS") (s.delay.map UInt64.toNat)
  seed : Holds (env "SANDLANG_SEED") (s.seed.map UInt64.toNat)

theorem number?_of_holds {env : Config.Environment} {name : String} {limit : Nat} {n : Option Nat}
    (holds : Holds (env name) n) (small : ∀ m ∈ n, m ≤ limit) :
    Config.number? env name limit = .ok n := by
  unfold Config.number?
  generalize env name = content at holds
  cases holds with
  | unset => rfl
  | set numeral => simp only [readNatural?_eq_some_iff.mpr ⟨small _ rfl, numeral⟩]

theorem Settings.InEnvironment.read_eq {s : Settings} {env : Config.Environment}
    (given : s.InEnvironment env) : Config.readEnvironment env = .ok (s.applied {}) := by
  have width := number?_of_holds given.width (words32_le _)
  have height := number?_of_holds given.height (words32_le _)
  have tileSize := number?_of_holds given.tileSize (words32_le _)
  have workers := number?_of_holds given.workers (words64_le _)
  have delay := number?_of_holds given.delay (words64_le _)
  have seed := number?_of_holds given.seed (words64_le _)
  simp only [Config.readEnvironment, Config.word32, Config.word64, width, height, tileSize,
    workers, delay, seed]
  simp only [bind, Except.bind, pure, Except.pure, map_ofNat_words32, map_ofNat_words64]
  rfl

/-! ## Files -/

/-- Whether the top level of a file gives settings and no others. -/
structure Settings.InFile (s : Settings) (entries : Toml.Entries) : Prop where
  width : entries.get? "width" = s.width.map fun w => .integer w.toNat
  height : entries.get? "height" = s.height.map fun w => .integer w.toNat
  tileSize : entries.get? "tile_size" = s.tileSize.map fun w => .integer w.toNat
  workers : entries.get? "workers" = s.workers.map fun w => .integer w.toNat
  delay : entries.get? "update_delay_nanos" = s.delay.map fun w => .integer w.toNat
  seed : entries.get? "seed" = s.seed.map fun w => .integer w.toNat

theorem setting?_of_get? {entries : Toml.Entries} {name : String} {limit : Nat} {α : Type}
    {value : α → Nat} {w : Option α}
    (found : entries.get? name = w.map fun w => .integer (value w))
    (small : ∀ n ∈ w.map value, n ≤ limit) :
    Config.setting? entries name limit = .ok (w.map value) := by
  unfold Config.setting?
  rw [found]
  cases w with
  | none => rfl
  | some w =>
    have fits : value w ≤ limit := small _ rfl
    simp only [Option.map_some]
    rw [if_pos (by simp [fits])]
    rfl

theorem Settings.InFile.read_eq {s : Settings} {text : List Char} {entries : Toml.Entries}
    (parsed : Toml.read? text = some entries) (given : s.InFile entries) :
    Config.readFile text = .ok (s.applied {}) := by
  have width := setting?_of_get? given.width (words32_le _)
  have height := setting?_of_get? given.height (words32_le _)
  have tileSize := setting?_of_get? given.tileSize (words32_le _)
  have workers := setting?_of_get? given.workers (words64_le _)
  have delay := setting?_of_get? given.delay (words64_le _)
  have seed := setting?_of_get? given.seed (words64_le _)
  simp only [Config.readFile, parsed, width, height, tileSize, workers, delay, seed]
  simp only [bind, Except.bind, pure, Except.pure, map_ofNat_words32, map_ofNat_words64]
  rfl

/-! ## The configuration of a command line -/

/-- Whether the file that arguments name gives settings, or the environment if they name none. -/
inductive Sourced (a : Arguments) (outside : Surroundings) (s : Settings) : Prop
  | file {path text : String} {entries : Toml.Entries} (named : a.config = some path)
      (read : Files.decode (outside.file path) = .ok text)
      (parsed : Toml.read? text.toList = some entries) (entered : s.InFile entries)
  | environment (unnamed : a.config = none) (set : s.InEnvironment outside.environment)

section Loading

variable {a : Arguments} {outside : Surroundings} {given : Settings}

/-- Validity is judged twice: before the arguments count and after. -/
theorem Sourced.loadConfig_eq (sourced : Sourced a outside given) :
    ∃ wrap : Config.Flaw → ConfigError, a.loadConfig outside =
      ((given.applied {}).validate.mapError wrap).bind fun base =>
        (a.settings.applied base).validate.mapError fun flaw => .setting (.invalid flaw) := by
  cases sourced with
  | @file path text entries named read parsed entered =>
    refine ⟨fun flaw => .file path (.invalid flaw), ?_⟩
    have base : Config.ofBytes (outside.file path) =
        (given.applied {}).validate.mapError .invalid := by
      rw [Config.ofBytes, read]
      show Config.ofFile text.toList = _
      rw [Config.ofFile, entered.read_eq parsed]
      rfl
    rw [Arguments.loadConfig, named]
    dsimp only
    rw [base]
    cases (given.applied {}).validate <;> rfl
  | environment unnamed set =>
    refine ⟨fun flaw => .setting (.invalid flaw), ?_⟩
    have base : Config.ofEnvironment outside.environment =
        (given.applied {}).validate.mapError .invalid := by
      rw [Config.ofEnvironment, set.read_eq]
      rfl
    rw [Arguments.loadConfig, unnamed]
    dsimp only
    rw [base]
    cases (given.applied {}).validate <;> rfl

/-- Where the source alone makes a configuration to use, the one that the arguments make of it
is judged. -/
theorem Sourced.loadConfig_of_usable (sourced : Sourced a outside given)
    (usable : Usable (given.applied {})) :
    a.loadConfig outside = ((a.settings.or given).applied {}).validate.mapError
      fun flaw => .setting (.invalid flaw) := by
  obtain ⟨wrap, same⟩ := sourced.loadConfig_eq
  rw [same, validate_eq_ok_iff.mpr ⟨usable, rfl⟩, Settings.applied_or]
  rfl

theorem Sourced.loadConfig_eq_ok_iff (sourced : Sourced a outside given) {c : Config} :
    a.loadConfig outside = .ok c ↔ Usable (given.applied {}) ∧
      Usable ((a.settings.or given).applied {}) ∧ c = (a.settings.or given).applied {} := by
  by_cases usable : Usable (given.applied {})
  · rw [sourced.loadConfig_of_usable usable, ← validate_eq_ok_iff, and_iff_right usable]
    cases ((a.settings.or given).applied {}).validate <;> simp [Except.mapError]
  · obtain ⟨wrap, same⟩ := sourced.loadConfig_eq
    rw [same, iff_false_right fun parts => usable parts.1]
    cases judged : (given.applied {}).validate with
    | error flaw => exact nofun
    | ok base => exact absurd (validate_eq_ok_iff.mp judged).1 usable

/-- A configuration is loaded if and only if the one that the file or the environment makes of the
defaults can be used and so can the one with the settings of the arguments too, which is then the
one that is loaded. Apart from whether the former can be used, what is set in the file or the
environment makes no difference where the arguments set it too. -/
theorem loadConfig_overriding (sourced : Sourced a outside given) :
    (∀ c, a.loadConfig outside = .ok c ↔ Usable (given.applied {}) ∧
      Usable ((a.settings.or given).applied {}) ∧ c = (a.settings.or given).applied {}) ∧
    ∀ {b : Arguments} {elsewhere : Surroundings} {other : Settings}, Sourced b elsewhere other →
      b.settings = a.settings → a.settings.or other = a.settings.or given →
        (Usable (other.applied {}) ↔ Usable (given.applied {})) →
          (∀ c, b.loadConfig elsewhere = .ok c ↔ a.loadConfig outside = .ok c) ∧
          (Usable (given.applied {}) → b.loadConfig elsewhere = a.loadConfig outside) := by
  refine ⟨fun c => sourced.loadConfig_eq_ok_iff, ?_⟩
  intro b elsewhere other sourced' flags same usable
  refine ⟨fun c => ?_, fun used => ?_⟩
  · rw [sourced.loadConfig_eq_ok_iff, sourced'.loadConfig_eq_ok_iff, flags, same, usable]
  · rw [sourced.loadConfig_of_usable used, sourced'.loadConfig_of_usable (usable.mpr used), flags,
      same]

end Loading

/-- Arguments that ask for a width of five and a seed. -/
def fiveWide (config : Option String) : Arguments where
  script := "x"
  config := config
  width := some 5
  height := none
  tileSize := none
  workers := none
  seed := some 9
  delay := none
  seconds := 5
  strokes := []
  reportEvery := 1000
  dump := false
  png := none
  check := false

/-- Surroundings with one file and one variable. -/
def surrounded (file name value : String) : Surroundings where
  environment other := if other = name then some value else none
  file _ := .ok file.toUTF8

theorem decode_toUTF8 (text : String) : Files.decode (.ok text.toUTF8) = .ok text := by
  have found : String.fromUTF8? text.toUTF8 = some text := dif_pos text.isValidUTF8
  simp only [Files.decode, Except.mapError, bind, Except.bind, found]
  rfl

/-- The integers of a document that has nothing else. -/
def integers? : Toml.Entries → Option (List (String × Int))
  | [] => some []
  | (name, .integer n) :: rest => (integers? rest).map ((name, n) :: ·)
  | _ :: _ => none

theorem entries_of_integers {entries : Toml.Entries} {integers : List (String × Int)}
    (h : integers? entries = some integers) : entries = integers.map (Prod.map id .integer) := by
  induction entries generalizing integers with
  | nil => cases h; rfl
  | cons entry rest ih =>
    obtain ⟨name, node⟩ := entry
    cases node with
    | integer n =>
      obtain ⟨others, found, rfl⟩ := Option.map_eq_some_iff.mp h
      rw [ih found]
      rfl
    | string | boolean | float | moment | array | table | tables => cases h

theorem read?_of_integers (integers : List (String × Int)) {text : List Char}
    (h : (Toml.read? text).bind integers? = some integers) :
    Toml.read? text = some (integers.map (Prod.map id .integer)) := by
  obtain ⟨entries, read, found⟩ := Option.bind_eq_some_iff.mp h
  rw [read, entries_of_integers found]

theorem loadConfig_fiveWide :
    (fiveWide (some "grid.toml")).loadConfig (surrounded "width = 64\nseed = 4" "X" "") =
        .ok { width := 5, seed := some 9 } ∧
      (fiveWide none).loadConfig (surrounded "" "SANDLANG_WIDTH" " +07 ") =
        .ok { width := 5, seed := some 9 } := by
  have filed : Sourced (fiveWide (some "grid.toml"))
      (surrounded "width = 64\nseed = 4" "X" "") { width := some 64, seed := some 4 } := by
    have read : Files.decode ((surrounded "width = 64\nseed = 4" "X" "").file "grid.toml") =
        .ok "width = 64\nseed = 4" := decode_toUTF8 _
    have parsed : Toml.read? "width = 64\nseed = 4".toList =
        some [("width", .integer 64), ("seed", .integer 4)] :=
      read?_of_integers [("width", 64), ("seed", 4)] (by decide +kernel)
    have entered : Settings.InFile { width := some 64, seed := some 4 }
        [("width", .integer 64), ("seed", .integer 4)] := by
      constructor <;> simp [Toml.Entries.get?]
    exact .file rfl read parsed entered
  have set : Sourced (fiveWide none) (surrounded "" "SANDLANG_WIDTH" " +07 ")
      { width := some 7 } := by
    have seven : IsUnsigned 7 (trim " +07 ".toList) :=
      ⟨['0', '7'], ⟨1, rfl⟩, .inr (by decide +kernel)⟩
    have unset {name : String} (other : name ≠ "SANDLANG_WIDTH") :
        Holds ((surrounded "" "SANDLANG_WIDTH" " +07 ").environment name) none := by
      have absent : (surrounded "" "SANDLANG_WIDTH" " +07 ").environment name = none := if_neg other
      rw [absent]
      exact .unset
    exact .environment rfl ⟨.set seven, unset (by decide), unset (by decide), unset (by decide),
      unset (by decide), unset (by decide)⟩
  have loaded := ((loadConfig_overriding filed).1 { width := 5, seed := some 9 }).mpr
    ⟨⟨by decide, by decide, by decide, by decide⟩,
      ⟨by decide, by decide, by decide, by decide⟩, rfl⟩
  have apart := (loadConfig_overriding filed).2 set rfl rfl
    (iff_of_true ⟨by decide, by decide, by decide, by decide⟩
      ⟨by decide, by decide, by decide, by decide⟩)
  exact ⟨loaded, (apart.1 _).mpr loaded⟩

/-- A width of zero in a file is refused although the arguments override it. -/
theorem loadConfig_zeroWidth :
    Sourced (fiveWide (some "grid.toml")) (surrounded "width = 0" "X" "") { width := some 0 } ∧
      Usable (((fiveWide (some "grid.toml")).settings.or { width := some 0 }).applied {}) ∧
      ∀ c, (fiveWide (some "grid.toml")).loadConfig (surrounded "width = 0" "X" "") ≠ .ok c := by
  have read : Files.decode ((surrounded "width = 0" "X" "").file "grid.toml") =
      .ok "width = 0" := decode_toUTF8 _
  have parsed : Toml.read? "width = 0".toList = some [("width", .integer 0)] :=
    read?_of_integers [("width", 0)] (by decide +kernel)
  have entered : Settings.InFile { width := some 0 } [("width", .integer 0)] := by
    constructor <;> simp [Toml.Entries.get?]
  have sourced : Sourced (fiveWide (some "grid.toml")) (surrounded "width = 0" "X" "")
      { width := some 0 } := .file rfl read parsed entered
  refine ⟨sourced, ⟨by decide, by decide, by decide, by decide⟩, fun c loaded => ?_⟩
  exact absurd (sourced.loadConfig_eq_ok_iff.mp loaded).1.width (by decide)

end FallingSand.CommandLine
