import FallingSand.Proofs.Script.Renumbering
import FallingSand.Proofs.Script.Unresolved

/-!
# The layout of a script

Where lines stand in a script, and what comments stand between them, has no influence on
what they mean. `compileNumbered` compiles each line under its own number, notes symbols
under the numbers of their lines and compares these; yet it does what `compile` does
(`compile_eq_numbered`), which knows of the lines that are kept by their place alone. So
scripts with the same lines are compiled alike, up to the numbers in their errors.
-/

namespace FallingSand.Script

/-! ## Compiling under the numbers of lines -/

/-- The builder after some lines, each compiled under its number; or a problem and the number
of its line. -/
def Builder.numberedLines (b : Builder) : List Line → Except (Nat × Problem) Builder
  | [] => .ok b
  | line :: rest =>
    match b.line line.number line.text with
    | .ok b => b.numberedLines rest
    | .error problem => .error (line.number, problem)

/-- Compiles a script line by line under the numbers that the lines have in it. -/
def compileNumbered (source : List Char) : Except Error Compiled :=
  match lines source with
  | .error opened => .error (.onLine opened .unterminatedComment)
  | .ok kept =>
    match Builder.numberedLines {} kept with
    | .error (number, problem) => .error (.onLine number problem)
    | .ok b =>
      match b.unclosed? with
      | some problem => .error (.onLine ((kept.getLast?.map (·.number)).getD 0) problem)
      | none => b.build.mapError fun
        | .noAtoms => .noAtoms
        | .onLine number problem => .onLine number problem

/-! ## Ascending numbers -/

/-- Lines whose numbers ascend from a lowest one. -/
def Ascending (lowest : Nat) : List Line → Prop
  | [] => True
  | line :: rest => lowest ≤ line.number ∧ Ascending (line.number + 1) rest

theorem Ascending.mono {lowest lower : Nat} {kept : List Line} (h : Ascending lowest kept)
    (le : lower ≤ lowest) : Ascending lower kept := by
  cases kept with
  | nil => trivial
  | cons line rest => exact ⟨le.trans h.1, h.2⟩

theorem ascending_keptLines (number : Nat) (opened : Option Nat) (raws : List (List Char)) :
    Ascending number (keptLines number opened raws).1 := by
  induction raws generalizing number opened with
  | nil => trivial
  | cons raw rest ih =>
    unfold keptLines
    dsimp only
    have later := ih (number + 1) (uncomment number opened raw).2
    split
    · exact later.mono (Nat.le_succ number)
    · exact ⟨le_rfl, later⟩

theorem ascending_of_lines {source : List Char} {kept : List Line}
    (h : lines source = .ok kept) : Ascending 1 kept := by
  have ascending := ascending_keptLines 1 none (Text.lines source)
  unfold lines at h
  generalize keptLines 1 none (Text.lines source) = result at h ascending
  obtain ⟨kept', _ | opened⟩ := result
  · cases h
    exact ascending
  · cases h

/-- The number of the line at a place, and higher ones beyond the last line. -/
def numberAt (lowest : Nat) : List Line → Nat → Nat
  | [], place => lowest + place
  | line :: _, 0 => line.number
  | line :: rest, place + 1 => numberAt (line.number + 1) rest place

theorem numberAt_of_getElem? {lowest place : Nat} {kept : List Line} {line : Line}
    (h : kept[place]? = some line) : numberAt lowest kept place = line.number := by
  induction kept generalizing lowest place with
  | nil => cases h
  | cons head rest ih =>
    cases place with
    | zero =>
      cases h
      rfl
    | succ place => exact ih h

theorem le_numberAt {lowest : Nat} {kept : List Line} (h : Ascending lowest kept) (place : Nat) :
    lowest ≤ numberAt lowest kept place := by
  induction kept generalizing lowest place with
  | nil =>
    rw [numberAt]
    exact Nat.le_add_right lowest place
  | cons line rest ih =>
    cases place with
    | zero => exact h.1
    | succ place => exact h.1.trans ((Nat.le_succ _).trans (ih h.2 place))

theorem strictMono_numberAt {lowest : Nat} {kept : List Line} (h : Ascending lowest kept) :
    StrictMono (numberAt lowest kept) := by
  refine strictMono_nat_of_lt_succ fun place => ?_
  induction kept generalizing lowest place with
  | nil =>
    rw [numberAt, numberAt]
    exact Nat.lt_succ_self (lowest + place)
  | cons line rest ih =>
    cases place with
    | zero => exact le_numberAt h.2 0
    | succ place => exact ih h.2 place

/-! ## Runs under both -/

namespace Builder

variable {b : Builder}

/-- Where no rule is open a line does not depend on its number. -/
theorem line_of_free (free : b.draft = none) (index index' : Nat) (text : List Char) :
    b.line index text = b.line index' text := by
  have effect (line : List Char) : b.beginEffect index line = b.beginEffect index' line := by
    unfold beginEffect
    rw [free]
  have rule (line : List Char) : b.ruleLine index line = b.ruleLine index' line := by
    unfold ruleLine
    rw [effect]
  have body (line : List Char) : b.bodyLine index line = b.bodyLine index' line := by
    unfold bodyLine
    rw [rule]
  have outer (line : List Char) : b.outerLine index line = b.outerLine index' line := by
    unfold outerLine
    rw [body]
  unfold line
  rw [free, outer]

variable {f : Nat → Nat}

/-- Lines under their numbers do what they do under their places. -/
theorem numberedLines_renumber (inj : Function.Injective f) {kept : List Line} {index : Nat}
    (numbers : ∀ place line, kept[place]? = some line → line.number = f (index + place))
    (b : Builder) :
    (b.renumber f).numberedLines kept = match b.lines index (kept.map (·.text)) with
      | .ok b' => .ok (b'.renumber f)
      | .error (place, problem) => .error (f place, problem) := by
  induction kept generalizing b index with
  | nil => rfl
  | cons line rest ih =>
    have here : line.number = f index := numbers 0 line rfl
    rw [numberedLines, List.map_cons, lines, here, renumber_line inj]
    cases b.line index line.text with
    | error problem => rfl
    | ok next =>
      refine ih (fun place later found => ?_) next
      rw [Nat.add_right_comm, Nat.add_assoc]
      exact numbers (place + 1) later found

theorem index_of_lines_error {texts : List (List Char)} {index place : Nat} {problem : Problem}
    (h : b.lines index texts = .error (place, problem)) :
    index ≤ place ∧ place < index + texts.length := by
  induction texts generalizing b index with
  | nil => cases h
  | cons text rest ih =>
    unfold lines at h
    rw [List.length_cons]
    split at h
    · have later := ih h
      omega
    · cases h
      omega

/-- The end of a script finds a problem only with a symbol that is noted. -/
theorem references_of_build {place : Nat} {problem : Problem}
    (h : b.build = .error (.onLine place problem)) :
    ∃ (world : World) (symbol : String), b.references.find?
      (fun (_, symbol) => (world.placeable? symbol).isNone) = some (place, symbol) := by
  unfold build at h
  split at h
  · cases h
  rename_i world _
  split at h
  · rename_i found
    cases h
    exact ⟨world, _, found⟩
  · cases h

/-- A symbol is noted for a line of the script, and not for the first one, in front of which no
block is open. -/
theorem place_of_build {texts : List (List Char)} {place : Nat} {problem : Problem}
    (run : lines {} 0 texts = .ok b) (h : b.build = .error (.onLine place problem)) :
    0 < place ∧ place < texts.length := by
  obtain ⟨world, symbol, found⟩ := references_of_build h
  rw [references_find? run] at found
  obtain ⟨earlier, rule, later, same, first⟩ := exists_firstUnresolved found
  have written := patternAt_of_placed same first
  refine ⟨Nat.pos_of_ne_zero ?_, (List.getElem?_eq_some_iff.mp written.keyword).1⟩
  obtain ⟨b₀, d, before, draft, -⟩ := written.opened
  rintro rfl
  cases before
  cases draft

theorem build_renumber (f : Nat → Nat) (b : Builder) :
    (b.renumber f).build = b.build.mapError fun
      | .noAtoms => .noAtoms
      | .onLine place problem => .onLine (f place) problem := by
  unfold build
  rw [show (b.renumber f).atoms = b.atoms from rfl,
    show (b.renumber f).defaults = b.defaults from rfl,
    show (b.renumber f).preload = b.preload from rfl,
    show (b.renumber f).warnings = b.warnings from rfl]
  cases World.build? b.atoms b.defaults b.preload with
  | none => rfl
  | some world =>
    have found : ((b.renumber f).references.find? fun (_, symbol) =>
          (world.placeable? symbol).isNone) =
        (b.references.find? fun (_, symbol) => (world.placeable? symbol).isNone).map
          fun (line, symbol) => (f line, symbol) := List.find?_map
    dsimp only
    rw [found]
    cases b.references.find? fun (_, symbol) => (world.placeable? symbol).isNone <;> rfl

end Builder

/-! ## Compiling under both -/

/-- The place of the first line as number zero, and the other lines under their numbers: before
the second line nothing is known that has a number. -/
def placing : List Line → Nat → Nat
  | [], place => place
  | _ :: rest, place => numberAt 0 (⟨0, []⟩ :: rest) place

theorem placing_injective {kept : List Line} (h : Ascending 1 kept) :
    Function.Injective (placing kept) := by
  cases kept with
  | nil => exact Function.injective_id
  | cons first rest =>
    have ascending : Ascending 0 (⟨0, []⟩ :: rest) := ⟨le_rfl, h.2.mono (Nat.le_add_left 1 _)⟩
    exact (strictMono_numberAt ascending).injective

theorem placing_of_pos {kept : List Line} {place : Nat} {line : Line} (pos : 0 < place)
    (h : kept[place]? = some line) : placing kept place = line.number := by
  cases kept with
  | nil => cases h
  | cons first rest =>
    cases place with
    | zero => cases pos
    | succ place => exact numberAt_of_getElem? h

/-- The lines of a script under their numbers, and under their places. -/
theorem numberedLines_eq {kept : List Line} (h : Ascending 1 kept) :
    Builder.numberedLines {} kept = match Builder.lines {} 0 (kept.map (·.text)) with
      | .ok b => .ok (b.renumber (placing kept))
      | .error (place, problem) => .error ((kept[place]?.map (·.number)).getD 0, problem) := by
  cases kept with
  | nil => rfl
  | cons first rest =>
    rw [Builder.numberedLines, List.map_cons, Builder.lines,
      Builder.line_of_free rfl first.number 0]
    have inj := placing_injective h
    have same := Builder.renumber_line inj {} 0 first.text
    rw [show Builder.renumber (placing (first :: rest)) {} = {} from rfl,
      show placing (first :: rest) 0 = 0 from rfl] at same
    cases read : Builder.line {} 0 first.text with
    | error problem => rfl
    | ok next =>
      rw [read] at same
      have numbers : ∀ place line, rest[place]? = some line →
          line.number = placing (first :: rest) (1 + place) := by
        intro place line found
        rw [Nat.add_comm]
        exact (placing_of_pos place.succ_pos found).symm
      have later := Builder.numberedLines_renumber inj numbers next
      rw [← Except.ok.inj same] at later
      dsimp only
      rw [later, Nat.zero_add]
      cases run : next.lines 1 (rest.map (·.text)) with
      | ok b => rfl
      | error stop =>
        obtain ⟨place, problem⟩ := stop
        obtain ⟨after, before⟩ := Builder.index_of_lines_error run
        rw [List.length_map] at before
        have inside : place < (first :: rest).length := by
          rw [List.length_cons]
          omega
        have found := List.getElem?_eq_getElem inside
        dsimp only
        rw [placing_of_pos after found, found]
        rfl

/-- It makes no difference whether lines are compiled under their numbers. -/
theorem compile_eq_numbered (source : List Char) : compile source = compileNumbered source := by
  unfold compile compileNumbered
  cases read : lines source with
  | error opened => rfl
  | ok kept =>
    dsimp only
    rw [numberedLines_eq (ascending_of_lines read)]
    unfold compileLines
    cases run : Builder.lines {} 0 (kept.map (·.text)) with
    | error stop => rfl
    | ok b =>
      dsimp only
      rw [show (b.renumber (placing kept)).unclosed? = b.unclosed? from rfl]
      cases b.unclosed? with
      | some problem =>
        dsimp only [Except.mapError]
        rw [List.length_map, ← List.getLast?_eq_getElem?]
      | none =>
        dsimp only
        rw [Builder.build_renumber]
        cases built : b.build with
        | ok compiled => rfl
        | error e =>
          cases e with
          | noAtoms => rfl
          | onLine place problem =>
            obtain ⟨pos, inside⟩ := Builder.place_of_build run built
            rw [List.length_map] at inside
            have found := List.getElem?_eq_getElem inside
            dsimp only [Except.mapError]
            rw [placing_of_pos pos found, found]
            rfl

theorem index_of_compileLines {texts : List (List Char)} {index : Nat} {problem : Problem}
    (h : compileLines texts = .error (.onLine index problem)) : index < texts.length := by
  unfold compileLines at h
  cases run : Builder.lines {} 0 texts with
  | error stop =>
    rw [run] at h
    cases h
    have := (Builder.index_of_lines_error run).2
    omega
  | ok b =>
    rw [run] at h
    dsimp only at h
    split at h
    · rename_i unclosed
      cases h
      cases texts with
      | nil =>
        cases run
        cases unclosed
      | cons text rest => exact Nat.lt_succ_self rest.length
    · exact (Builder.place_of_build run h).2

/-- Sources with the same lines, at whatever places and between whatever comments, make the
same world, or have no atoms, or have the same problem on the same one of the lines; and
compiling the lines under their numbers in each source gives the same answers. -/
theorem layout_irrelevant {source source' : List Char} {kept kept' : List Line}
    (read : lines source = .ok kept) (read' : lines source' = .ok kept')
    (same : kept.map (·.text) = kept'.map (·.text)) :
    compile source = compileNumbered source ∧ compile source' = compileNumbered source' ∧
      ((∃ compiled, compile source = .ok compiled ∧ compile source' = .ok compiled) ∨
        (compile source = .error .noAtoms ∧ compile source' = .error .noAtoms) ∨
        ∃ (index : Nat) (line line' : Line) (problem : Problem),
          kept[index]? = some line ∧ kept'[index]? = some line' ∧
          compile source = .error (.onLine line.number problem) ∧
          compile source' = .error (.onLine line'.number problem)) := by
  refine ⟨compile_eq_numbered source, compile_eq_numbered source', ?_⟩
  unfold compile
  rw [read, read']
  dsimp only
  rw [← same]
  cases outcome : compileLines (kept.map (·.text)) with
  | ok compiled => exact .inl ⟨compiled, rfl, rfl⟩
  | error e =>
    cases e with
    | noAtoms => exact .inr (.inl ⟨rfl, rfl⟩)
    | onLine index problem =>
      have inside := index_of_compileLines outcome
      have inside' : index < kept'.length := by
        rwa [same, List.length_map] at inside
      rw [List.length_map] at inside
      refine .inr (.inr ⟨index, kept[index], kept'[index], problem,
        List.getElem?_eq_getElem inside, List.getElem?_eq_getElem inside', ?_, ?_⟩)
      · dsimp only [Except.mapError]
        rw [List.getElem?_eq_getElem inside]
        rfl
      · dsimp only [Except.mapError]
        rw [List.getElem?_eq_getElem inside']
        rfl

/-- The lines of `strayed`, below a comment, indented and with remarks between them. -/
def scattered : List Char :=
  "/* Heaps\nof sand. */\n".toList ++
    strayedLines.flatMap fun line => "  ".toList ++ line.toList ++ " // and so on\n\n".toList

theorem scattered_read : (lines scattered).toOption.isSome = true := by decide +kernel

theorem scattered_alike : ∃ (kept kept' : List Line) (index : Nat) (line line' : Line)
    (problem : Problem), kept.map (·.text) = kept'.map (·.text) ∧
      kept[index]? = some line ∧ kept'[index]? = some line' ∧
      compile strayed = .error (.onLine line.number problem) ∧
      compile scattered = .error (.onLine line'.number problem) := by
  obtain ⟨kept, b, read, -⟩ := strayed_accepted
  obtain ⟨kept', read'⟩ := Option.isSome_iff_exists.mp scattered_read
  have texts : (lines strayed).toOption.map (·.map (·.text)) =
      (lines scattered).toOption.map (·.map (·.text)) := by decide +kernel
  have same : kept.map (·.text) = kept'.map (·.text) := by
    rw [read', read] at texts
    exact Option.some.inj texts
  rcases (layout_irrelevant read (eq_ok_of_toOption read') same).2.2 with
    ⟨compiled, succeeds, -⟩ | ⟨none, -⟩ | ⟨index, line, line', problem, found⟩
  · rw [strayed_fails] at succeeds
    cases succeeds
  · rw [strayed_fails] at none
    cases none
  · exact ⟨kept, kept', index, line, line', problem, same, found⟩

end FallingSand.Script
