import FallingSand.Proofs.Script.AtomSteps
import FallingSand.Proofs.Script.Blocks
import FallingSand.Proofs.Script.Shape
import Mathlib.Data.List.Induction

/-!
# Lines that declare sets

A set is declared for one atom, in its section `definition`, or by a `global` line for the atoms
that are opened after it. So of a script only some lines matter for sets (`SetLine`), and the sets
of an atom can be read off these (`declaredMembers?`): the last declaration in the atom counts, or
else the last global one before the atom is opened. Every line does to the builder what it says of
sets (`Builder.setStep_of_line`).
-/

namespace FallingSand

/-! ## Lists of entries -/

/-- The value of a name in a list of entries, of which the last one counts. -/
def lastOf? {α : Type} (name : String) (entries : List (String × α)) : Option α :=
  entries.reverse.lookup name

section

variable {α : Type} {name other : String} {value : α} {entries : List (String × α)}

theorem lastOf?_concat : lastOf? name (entries ++ [(other, value)]) =
    if other = name then some value else lastOf? name entries := by
  rw [lastOf?, List.reverse_append, List.reverse_singleton, List.singleton_append,
    List.lookup_cons, lastOf?]
  by_cases same : other = name
  · rw [if_pos same, same, beq_self_eq_true]
  · rw [if_neg same, beq_false_of_ne (Ne.symm same)]

theorem isSome_lastOf? :
    (lastOf? name entries).isSome = true ↔ ∃ value, (name, value) ∈ entries := by
  induction entries using List.reverseRecOn with
  | nil => simp [lastOf?]
  | append_singleton entries entry ih =>
    obtain ⟨other, value⟩ := entry
    rw [lastOf?_concat]
    by_cases same : other = name
    · subst same
      simp only [if_true, Option.isSome_some, true_iff]
      exact ⟨value, by simp⟩
    · simp [same, ih, Ne.symm same]

/-- A table of entries gives each name its last value. -/
theorem Table.get?_ofList : (Table.ofList entries).get? name = lastOf? name entries := by
  induction entries using List.reverseRecOn with
  | nil => rfl
  | append_singleton entries entry ih =>
    obtain ⟨other, value⟩ := entry
    have step : Table.ofList (entries ++ [(other, value)]) =
        (Table.ofList entries).insert other value := by
      rw [Table.ofList, Table.insertAll, List.foldl_concat]
      rfl
    rw [step, Table.get?_insert, lastOf?_concat, ih]

end

namespace Script

/-! ## Sets along the lines -/

/-- A line that declares a set, or that opens an atom and so ends the global sets for it. -/
inductive SetLine where
  | global (set : String) (members : List SetMember)
  | opens (name : String)
  /-- A set in the section `definition` of the atom with a name. -/
  | own (name set : String) (members : List SetMember)
  deriving DecidableEq

/-- What a line says of sets where it stands. In a block of a rule it says nothing, whatever its
first word is. -/
def Builder.setLine? (b : Builder) (text : List Char) : Option SetLine :=
  if b.Outside then
    match keyword text with
    | "global" =>
      (Form.global.read text).toOption.map fun (set, members) => .global set members
    | "atom" => (Form.atomStart.read text).toOption.map fun (name, _) => .opens name
    | "def" =>
      match b.scope with
      | .atom atom (some .definition) =>
        (Form.definition.read text).toOption.map fun (set, members) =>
          .own atom.name set members
      | _ => none
    | _ => none
  else none

/-- What the line at a place of a script says of sets. -/
def setLineAt? (texts : List (List Char)) (n : Nat) : Option SetLine := do
  let b ← (Builder.lines {} 0 (texts.take n)).toOption
  b.setLine? (← texts[n]?)

/-- What the lines of a script say of sets, in order. -/
def setLines (texts : List (List Char)) : List SetLine :=
  (List.range texts.length).filterMap (setLineAt? texts)

/-- The sets that are declared for all later atoms. -/
def globalSets (seen : List SetLine) : List (String × List SetMember) :=
  seen.filterMap fun
    | .global set members => some (set, members)
    | _ => none

/-- The global sets before the line that opens the atom with a name. -/
def globalsBefore (name : String) (seen : List SetLine) : List (String × List SetMember) :=
  globalSets (seen.takeWhile (· ≠ .opens name))

/-- The sets that are declared in the atom with a name. -/
def ownSets (name : String) (seen : List SetLine) : List (String × List SetMember) :=
  seen.filterMap fun
    | .own other set members => if other = name then some (set, members) else none
    | _ => none

/-- The members of a set of the atom with a name: those of the last declaration in the atom, or
else of the last global one before the atom. -/
def declaredMembers? (name set : String) (seen : List SetLine) : Option (List SetMember) :=
  (lastOf? set (ownSets name seen)).or (lastOf? set (globalsBefore name seen))

section

variable {name other set : String} {members : List SetMember} {seen : List SetLine}

/-- What comes after the line that opens an atom is not global for it. -/
theorem globalsBefore_append (opened : SetLine.opens name ∈ seen) (more : List SetLine) :
    globalsBefore name (seen ++ more) = globalsBefore name seen := by
  have stops : (seen.takeWhile (· ≠ .opens name)).length ≠ seen.length := by
    intro whole
    have all := List.takeWhile_eq_self_iff.mp
      ((List.takeWhile_prefix _).eq_of_length whole) _ opened
    simp at all
  rw [globalsBefore, List.takeWhile_append, if_neg stops, globalsBefore]

/-- A line that declares nothing in an open atom, or in one that is closed, leaves its sets. -/
theorem declaredMembers?_concat (opened : SetLine.opens name ∈ seen) {line : SetLine}
    (silent : ownSets name [line] = []) :
    declaredMembers? name set (seen ++ [line]) = declaredMembers? name set seen := by
  have own : ownSets name (seen ++ [line]) = ownSets name seen := by
    rw [ownSets, List.filterMap_append, ← ownSets, ← ownSets, silent, List.append_nil]
  rw [declaredMembers?, own, globalsBefore_append opened, declaredMembers?]

/-- An atom starts with the global sets. -/
theorem declaredMembers?_opens (fresh : SetLine.opens name ∉ seen)
    (noOwn : ownSets name seen = []) :
    declaredMembers? name set (seen ++ [.opens name]) = lastOf? set (globalSets seen) := by
  have own : ownSets name (seen ++ [.opens name]) = [] := by
    rw [ownSets, List.filterMap_append, ← ownSets, noOwn]
    rfl
  have before : globalsBefore name (seen ++ [.opens name]) = globalSets seen := by
    have passes : ∀ line ∈ seen, decide (line ≠ .opens name) = true := by
      intro line member
      rw [decide_eq_true_eq]
      rintro rfl
      exact fresh member
    rw [globalsBefore, List.takeWhile_append_of_pos passes,
      List.takeWhile_cons_of_neg (by simp), List.append_nil]
  rw [declaredMembers?, own, before]
  rfl

theorem declaredMembers?_own (opened : SetLine.opens name ∈ seen) :
    declaredMembers? name other (seen ++ [.own name set members]) =
      if set = other then some members else declaredMembers? name other seen := by
  have own : ownSets name (seen ++ [.own name set members]) =
      ownSets name seen ++ [(set, members)] := by
    simp [ownSets]
  rw [declaredMembers?, own, globalsBefore_append opened, lastOf?_concat]
  split <;> rfl

end

/-! ## What a line says -/

section

variable {text : List Char} {entry : String × List SetMember}

theorem keyword_of_global (h : Form.global.read text = .ok entry) : keyword text = "global" :=
  keyword_of_leading (by decide) rfl (by decide) h

theorem keyword_of_atomStart {header : String × Option String}
    (h : Form.atomStart.read text = .ok header) : keyword text = "atom" :=
  keyword_of_leading (by decide) rfl (by decide) h

theorem keyword_of_definition (h : Form.definition.read text = .ok entry) :
    keyword text = "def" :=
  keyword_of_leading (by decide) rfl (by decide) h

end

namespace Builder

variable {b b' : Builder} {index : Nat} {text : List Char} {atom atom' : AtomType}
  {part : Option Part}

/-- What a line says of sets outside the blocks of rules. -/
inductive Says (b : Builder) (text : List Char) : SetLine → Prop
  | global {set : String} {members : List SetMember} :
      Form.global.read text = .ok (set, members) → Says b text (.global set members)
  | opens {name : String} {aliasName : Option String} :
      Form.atomStart.read text = .ok (name, aliasName) → Says b text (.opens name)
  | own {atom : AtomType} {set : String} {members : List SetMember} :
      b.scope = .atom atom (some .definition) → Form.definition.read text = .ok (set, members) →
      Says b text (.own atom.name set members)

theorem setLine?_eq_some {said : SetLine} :
    b.setLine? text = some said ↔ b.Outside ∧ b.Says text said := by
  constructor
  · intro h
    unfold setLine? at h
    split at h
    · rename_i outside
      refine ⟨outside, ?_⟩
      split at h
      · obtain ⟨⟨set, members⟩, read, rfl⟩ := Option.map_eq_some_iff.mp h
        exact .global (eq_ok_of_toOption read)
      · obtain ⟨⟨name, aliasName⟩, read, rfl⟩ := Option.map_eq_some_iff.mp h
        exact .opens (eq_ok_of_toOption read)
      · split at h
        · rename_i atom scope
          obtain ⟨⟨set, members⟩, read, rfl⟩ := Option.map_eq_some_iff.mp h
          exact .own scope (eq_ok_of_toOption read)
        · cases h
      · cases h
    · cases h
  · rintro ⟨outside, meant⟩
    rw [setLine?, if_pos outside]
    cases meant with
    | global read =>
      rw [keyword_of_global read, read]
      rfl
    | opens read =>
      rw [keyword_of_atomStart read, read]
      rfl
    | own scope read =>
      rw [keyword_of_definition read, scope, read]
      rfl

/-! ## What a line does -/

/-- The names of the atoms that are declared so far, each with its sets. -/
def setTables (b : Builder) : List (String × Table (List SetMember)) :=
  b.allAtoms.map fun atom => (atom.name, atom.definitions)

/-- No set is declared and no atom opened. -/
def SameSets (b b' : Builder) : Prop := b'.globals = b.globals ∧ b'.setTables = b.setTables

/-- What a line does that says something, or nothing, of sets. -/
inductive SetStep (b b' : Builder) : Option SetLine → Prop
  | other : SameSets b b' → SetStep b b' none
  | global {set : String} {members : List SetMember} :
      b'.globals = b.globals ++ [(set, members)] → b'.setTables = b.setTables →
      SetStep b b' (some (.global set members))
  | opens {name : String} : b'.globals = b.globals → name ∉ b.setTables.map Prod.fst →
      b'.setTables = b.setTables ++ [(name, Table.ofList b.globals)] →
      SetStep b b' (some (.opens name))
  | own {name set : String} {members : List SetMember}
      {closed : List (String × Table (List SetMember))} {table : Table (List SetMember)} :
      b'.globals = b.globals → b.setTables = closed ++ [(name, table)] →
      b'.setTables = closed ++ [(name, table.insert set members)] →
      SetStep b b' (some (.own name set members))

theorem setTables_of_atom (scope : b.scope = .atom atom part) :
    b.setTables = b.atoms.toList.map (fun atom => (atom.name, atom.definitions)) ++
      [(atom.name, atom.definitions)] := by
  rw [setTables, allAtoms_of_atom scope, List.map_append, List.map_singleton]

theorem setTables_of_other (scope : ∀ atom part, b.scope ≠ .atom atom part) :
    b.setTables = b.atoms.toList.map fun atom => (atom.name, atom.definitions) := by
  rw [setTables, allAtoms_of_other scope]

theorem globals_copies (copy : Rule → Rule) (rules : List Rule) (b : Builder) :
    (rules.foldl (fun b rule => b.pushNew (copy rule)) b).globals = b.globals := by
  induction rules generalizing b with
  | nil => rfl
  | cons rule rest ih => exact ih _

/-- A line that says nothing of sets leaves them. -/
theorem Next.sameSets (h : b.Next index text b') (silent : b.setLine? text = none) :
    SameSets b b' := by
  have spoken {said : SetLine} (outside : b.Outside) (meant : b.Says text said) : False := by
    rw [setLine?_eq_some.mpr ⟨outside, meant⟩] at silent
    cases silent
  have ignores : IgnoresRules fun atom : AtomType => (atom.name, atom.definitions) :=
    fun atom rule => by
      unfold AtomType.withRule
      split <;> rfl
  constructor
  · cases h with
    | global read outside => exact (spoken outside (.global read)).elim
    | endEffect _ _ _ finished | repeatEffect _ _ _ _ _ finished =>
      obtain ⟨-, rfl⟩ := finish_ok finished
      rfl
    | inherit =>
      rw [← Array.foldl_toList]
      exact globals_copies _ _ b
    | row | pattern | matchLine | effectLine | endMatch | beginMatch | beginEffect | repeatMatch
      | inheritNothing | change | openPart | closePart | closeAtom | closeRuleset | openAtom
      | openRuleset | preload | default => rfl
  · cases h.atomsStep ignores with
    | kept same => exact same
    | opened read outside => exact (spoken outside (.opens read)).elim
    | changed scope changed outside before after =>
      cases changed with
      | definition here read => exact (spoken outside (.own (here ▸ scope) read)).elim
      | color | key | constant | property | init | colorRule | extension =>
        simp [setTables, before, after]

/-- Every accepted line does to the sets what it says. -/
theorem setStep_of_line (h : b.line index text = .ok b') : SetStep b b' (b.setLine? text) := by
  cases told : b.setLine? text with
  | none => exact .other ((next_of_line h).sameSets told)
  | some said =>
    obtain ⟨outside, meant⟩ := setLine?_eq_some.mp told
    cases meant with
    | global read =>
      have word := keyword_of_global read
      rw [line_of_word outside word (by decide)] at h
      unfold outerLine at h
      rw [word] at h
      change (Form.global.read text >>= _) = _ at h
      rw [read] at h
      cases h
      exact .global rfl rfl
    | opens read =>
      have word := keyword_of_atomStart read
      rw [line_of_word outside word (by decide)] at h
      unfold outerLine at h
      rw [word] at h
      change b.openAtom text = _ at h
      unfold openAtom at h
      rw [read] at h
      dsimp only at h
      split at h
      · cases h
      rename_i file
      obtain ⟨header, same, h⟩ := bind_eq_ok.mp h
      cases same
      split at h
      · cases h
      rename_i fresh
      cases h
      have before := setTables_of_other (b := b) (by simp [scope_of_inFile file])
      refine .opens rfl ?_ ?_
      · rw [before]
        simpa using Array.any_eq_false'.mp (Bool.eq_false_of_not_eq_true fresh)
      · rw [before]
        exact setTables_of_atom (b := { b with scope := _, previous := none }) rfl
    | @own atom set members scope read =>
      have word := keyword_of_definition read
      rw [line_of_word outside word (by decide)] at h
      unfold outerLine at h
      rw [word] at h
      change b.bodyLine index text = _ at h
      unfold bodyLine at h
      rw [scope] at h
      change (addDefinition text atom >>= _) = _ at h
      unfold addDefinition at h
      rw [read] at h
      cases h
      exact .own rfl (setTables_of_atom scope) (setTables_of_atom (b := { b with scope := _ }) rfl)

end Builder

end Script

end FallingSand
