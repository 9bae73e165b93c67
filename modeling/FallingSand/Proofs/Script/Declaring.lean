import FallingSand.Proofs.Script.Blocks
import FallingSand.Proofs.Script.PlainLines

/-!
# Scripts of empty atoms

Any names that differ are the names of the atoms of a script, however many there are. Each
atom takes two lines, one that opens its block and one that closes it, and the builder is
left as it was but for one more type.
-/

namespace FallingSand.Script

open Text (Scanner)

/-- What can be the name of an atom. -/
structure IsName (name : List Char) : Prop where
  nonempty : name ≠ []
  chars : ∀ c ∈ name, Scanner.isNameChar c = true

/-- The line that opens the block of an atom without an alias. -/
def atomLine (name : List Char) : List Char := "atom ".toList ++ (name ++ ['\x7b'])

/-- The lines of atoms whose blocks are empty. -/
def emptyAtoms (names : List (List Char)) : List (List Char) :=
  names.flatMap fun name => [atomLine name, closing]

/-! ## The line of an atom -/

namespace IsName

variable {name : List Char} (valid : IsName name)

include valid

theorem identifier_append {c : Char} (stop : Scanner.isNameChar c = false) (rest : List Char) :
    Scanner.identifier (name ++ c :: rest) = some (String.ofList name, c :: rest) := by
  have parts : Scanner.identifier (name ++ c :: rest) =
      (Scanner.takeWhile1 Scanner.isNameChar (name ++ c :: rest)).bind
        fun r => some (String.ofList r.1, r.2) := rfl
  have taken : (name ++ c :: rest).takeWhile Scanner.isNameChar = name := by
    rw [List.takeWhile_append_of_pos valid.chars, List.takeWhile_cons_of_neg (by simp [stop]),
      List.append_nil]
  have left : (name ++ c :: rest).dropWhile Scanner.isNameChar = c :: rest := by
    rw [List.dropWhile_append_of_pos valid.chars, List.dropWhile_cons_of_neg (by simp [stop])]
  rw [parts, Scanner.takeWhile1, taken, left, if_neg (by simpa using valid.nonempty)]
  rfl

theorem leading_atomLine : leading "atom" (atomLine name) = some ((), name ++ ['\x7b']) := by
  obtain ⟨c, rest, rfl⟩ := List.exists_cons_of_ne_nil valid.nonempty
  have visible : Scanner.isLayout c = false := by
    cases layout : Scanner.isLayout c with
    | false => rfl
    | true =>
      have letter := valid.chars c List.mem_cons_self
      unfold Scanner.isLayout at layout
      simp only [Bool.or_eq_true, beq_iff_eq] at layout
      rcases layout with ((rfl | rfl) | rfl) | rfl <;> cases letter
  have parts : leading "atom" (atomLine (c :: rest)) =
      (Scanner.takeWhile1 Scanner.isLayout (' ' :: c :: (rest ++ ['\x7b']))).bind
        fun r => some ((), r.2) := rfl
  have blank : Scanner.isLayout ' ' = true := rfl
  simp [parts, Scanner.takeWhile1, blank, visible]

theorem read_atomLine : Form.atomStart.read (atomLine name) = .ok (String.ofList name, none) := by
  have scanned :
      Form.atomStart.scanner (atomLine name) = some ((String.ofList name, none), []) := by
    have parts : Form.atomStart.scanner (atomLine name) =
        (leading "atom" (atomLine name)).bind fun r => (Scanner.identifier r.2).bind fun n =>
          (optional (do Scanner.layout1; leading "alias"; Scanner.identifier) n.2).bind
            fun a => (openBrace a.2).bind fun left => some ((n.1, a.1), left.2) := rfl
    rw [parts, valid.leading_atomLine, Option.bind_some, valid.identifier_append rfl]
    rfl
  unfold Form.read
  rw [scanned]
  rfl

theorem notMem_atomLine {c : Char} (other : Scanner.isNameChar c = false)
    (word : c ∉ "atom ".toList) (brace : c ≠ '\x7b') : c ∉ atomLine name := by
  simp only [atomLine, List.mem_append, List.mem_singleton, not_or]
  refine ⟨word, fun member => ?_, brace⟩
  rw [valid.chars c member] at other
  cases other

theorem plain_atomLine : Plain (atomLine name) where
  head := ⟨'a', rfl, rfl⟩
  last c found := by
    rw [atomLine, ← List.append_assoc, List.getLast?_concat] at found
    cases found
    rfl
  noBreak := valid.notMem_atomLine rfl (by decide) (by decide)
  noComment := valid.notMem_atomLine rfl (by decide) (by decide)

end IsName

theorem plain_closing : Plain closing where
  head := ⟨'\x7d', rfl, rfl⟩
  last c found := by
    cases found
    rfl
  noBreak := by decide
  noComment := by decide

/-! ## Many atoms -/

variable {names : List (List Char)}

theorem plain_emptyAtoms (valid : ∀ name ∈ names, IsName name) :
    ∀ text ∈ emptyAtoms names, Plain text := by
  intro text member
  obtain ⟨name, known, member⟩ := List.mem_flatMap.mp member
  rcases List.mem_cons.mp member with rfl | member
  · exact (valid name known).plain_atomLine
  · rw [List.mem_singleton.mp member]
    exact plain_closing

namespace Builder

variable {b : Builder} {name : List Char} (index : Nat)

/-- The atom with nothing in it that comes next. -/
def emptyAtom (b : Builder) (name : List Char) : AtomType where
  id := UInt16.ofNat b.atoms.size
  name := String.ofList name
  aliasName := none
  definitions := Table.ofList b.globals

/-- The builder after an atom with nothing in it. -/
def declare (b : Builder) (name : List Char) : Builder :=
  { b with atoms := b.atoms.push (b.emptyAtom name), scope := .file, previous := none }

theorem names_declare : (b.declare name).atoms.toList.map (·.name) =
    b.atoms.toList.map (·.name) ++ [String.ofList name] := by
  simp [declare, emptyAtom]

theorem line_closing_of_atom {atom : AtomType} (free : b.draft = none)
    (scope : b.scope = .atom atom none) :
    b.line index closing = .ok { b with atoms := b.atoms.push atom, scope := .file } := by
  unfold line close
  rw [free, scope]
  rfl

theorem line_openAtom {text : List Char} {name : String} {aliasName : Option String}
    (free : b.draft = none) (file : b.scope = .file)
    (read : Form.atomStart.read text = .ok (name, aliasName))
    (fresh : b.atoms.any (·.name == name) = false) :
    b.line index text = .ok { b with
      scope := .atom { id := UInt16.ofNat b.atoms.size, name, aliasName
                       definitions := Table.ofList b.globals } none
      previous := none } := by
  have word : keyword text = "atom" := keyword_of_leading (by decide) rfl (by decide) read
  rw [line_of_word (outside_of_free free) word (by decide)]
  unfold outerLine
  rw [word]
  show b.openAtom text = _
  unfold openAtom inFile
  rw [file, read, free]
  simp only [bind, Except.bind, fresh]
  rfl

theorem lines_emptyAtom (free : b.draft = none) (file : b.scope = .file) (valid : IsName name)
    (fresh : String.ofList name ∉ b.atoms.toList.map (·.name)) (rest : List (List Char)) :
    b.lines index (atomLine name :: closing :: rest) = (b.declare name).lines (index + 2) rest := by
  have new : b.atoms.any (·.name == String.ofList name) = false := by
    rw [Array.any_eq_false']
    simpa using fresh
  have opened := line_openAtom index free file valid.read_atomLine new
  have closed := line_closing_of_atom (index + 1)
    (b := { b with scope := .atom (b.emptyAtom name) none, previous := none }) free rfl
  simp only [lines, opened]
  exact closed ▸ rfl

/-- Atoms with new names can always be declared. -/
theorem exists_lines_emptyAtoms (free : b.draft = none) (file : b.scope = .file)
    (quiet : b.references = []) (valid : ∀ name ∈ names, IsName name)
    (distinct : (b.atoms.toList.map (·.name) ++ names.map String.ofList).Nodup) :
    ∃ b', b.lines index (emptyAtoms names) = .ok b' ∧ b'.unclosed? = none ∧
      b'.references = [] ∧
      b'.atoms.toList.map (·.name) = b.atoms.toList.map (·.name) ++ names.map String.ofList := by
  induction names generalizing b index with
  | nil =>
    refine ⟨b, rfl, ?_, quiet, (List.append_nil _).symm⟩
    unfold unclosed?
    rw [free, file]
    rfl
  | cons name rest ih =>
    have fresh : String.ofList name ∉ b.atoms.toList.map (·.name) := fun member =>
      List.disjoint_of_nodup_append distinct member List.mem_cons_self
    have names : (b.declare name).atoms.toList.map (·.name) ++ rest.map String.ofList =
        b.atoms.toList.map (·.name) ++ (name :: rest).map String.ofList := by
      rw [names_declare, List.append_assoc, List.map_cons, List.singleton_append]
    obtain ⟨b', run, closed, still, same⟩ := ih (index + 2) (b := b.declare name) free rfl
      quiet (fun other member => valid other (List.mem_cons_of_mem _ member)) (names ▸ distinct)
    refine ⟨b', ?_, closed, still, same.trans names⟩
    rw [emptyAtoms, List.flatMap_cons]
    exact (lines_emptyAtom index free file (valid name List.mem_cons_self) fresh _).trans run

end Builder

/-- Any names that differ are those of the atoms of a script, in order. -/
theorem exists_compile_emptyAtoms (nonempty : names ≠ []) (valid : ∀ name ∈ names, IsName name)
    (distinct : names.Nodup) : ∃ compiled, compile (scriptOf (emptyAtoms names)) = .ok compiled ∧
      compiled.world.atoms.toList.map (·.name) = names.map String.ofList := by
  have different : (names.map String.ofList).Nodup :=
    distinct.map fun _ _ same => String.ofList_injective same
  obtain ⟨b, run, closed, quiet, same⟩ := Builder.exists_lines_emptyAtoms 0 (b := {}) rfl rfl
    rfl valid different
  have size : 0 < b.atoms.size := by
    have length := congrArg List.length same
    rw [List.length_map, Array.length_toList] at length
    rw [length]
    simpa [List.length_pos_iff] using nonempty
  let world : World := ⟨b.atoms, b.defaults, b.preload, size⟩
  have built : b.build = .ok ⟨world, b.warnings ++ unknownMembers world⟩ := by
    unfold Builder.build World.build?
    rw [dif_pos size, quiet]
    rfl
  have compiled := toOption_compile (reads_scriptOf (plain_emptyAtoms valid))
  rw [run, Except.toOption, Option.bind_some, closed, built] at compiled
  exact ⟨_, eq_ok_of_toOption compiled, same⟩

end FallingSand.Script
