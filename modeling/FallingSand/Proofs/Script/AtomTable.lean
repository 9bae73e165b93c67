import FallingSand.Proofs.Script.AtomSteps
import FallingSand.Proofs.Script.Declaring
import FallingSand.Proofs.Script.Gathering
import FallingSand.Proofs.World.Typing
import Mathlib.Data.List.Induction

/-!
# The table of atoms

The atoms of a world stand in the order in which the script declares them, no two with one
name (`Builder.Registered`). Their numbers are those of their places as long as these fit
in a number. Then whatever finds a type by its number finds the one that was meant
(`World.Coherent`).
-/

namespace FallingSand

namespace World

/-- The type at a place is the first one with a property. -/
structure IsFirst (world : World) (P : AtomType → Prop) (n : Nat) (atom : AtomType) : Prop where
  here : world.atoms[n]? = some atom
  holds : P atom
  before : ∀ m other, m < n → world.atoms[m]? = some other → ¬P other

/-- The type at a place is the last one with a property. -/
structure IsLast (world : World) (P : AtomType → Prop) (n : Nat) (atom : AtomType) : Prop where
  here : world.atoms[n]? = some atom
  holds : P atom
  after : ∀ m other, n < m → world.atoms[m]? = some other → ¬P other

/-- A world in which every type has the number of its place, and is found by this number, by its
name, as the first one with its alias and as the last one with its key. -/
structure Coherent (world : World) : Prop where
  number : ∀ (n : Nat) (atom : AtomType), world.atoms[n]? = some atom → atom.id.toNat = n
  found : ∀ (n : Nat) (atom : AtomType), world.atoms[n]? = some atom →
    world.atom? (UInt16.ofNat n) = some atom ∧ world.atom (UInt16.ofNat n) = atom
  named : ∀ atom ∈ world.atoms, world.atomByName? atom.name = some atom
  aliased : ∀ name atom, world.atomByAlias? name = some atom ↔
    ∃ n, world.IsFirst (fun other => other.aliasName = some name) n atom
  keyed : ∀ key atom, world.atomByKey? key = some atom ↔
    ∃ n, world.IsLast (fun other => other.key = some key) n atom
  placed : ∀ symbol id, world.placeable? symbol = some id ↔
    (∃ n atom, world.IsFirst (fun other => other.aliasName = some symbol) n atom ∧ atom.id = id) ∨
      (∀ atom ∈ world.atoms, atom.aliasName ≠ some symbol) ∧
        ∃ atom ∈ world.atoms, atom.name = symbol ∧ atom.id = id
  empty : (∃ atom ∈ world.atoms, atom.name = emptyName ∧ world.atom? world.empty = some atom) ∨
    (∀ atom ∈ world.atoms, atom.name ≠ emptyName) ∧ world.atom? world.empty = world.atoms[0]?

variable {world : World} {p : AtomType → Bool} {atom : AtomType}

/-! ## The first and the last -/

theorem find?_iff_isFirst :
    world.atoms.find? p = some atom ↔ ∃ n, world.IsFirst (fun other => p other = true) n atom := by
  rw [Array.find?_eq_some_iff_getElem]
  constructor
  · rintro ⟨holds, n, bound, rfl, before⟩
    refine ⟨n, Array.getElem?_eq_getElem bound, holds, ?_⟩
    intro m other lower found
    obtain ⟨inside, rfl⟩ := Array.getElem?_eq_some_iff.mp found
    simpa using before m lower
  · rintro ⟨n, here, holds, before⟩
    obtain ⟨bound, rfl⟩ := Array.getElem?_eq_some_iff.mp here
    refine ⟨holds, n, bound, rfl, ?_⟩
    intro m lower
    simpa using before m _ lower (Array.getElem?_eq_getElem (lower.trans bound))

theorem findRev?_iff_isLast :
    world.atoms.findRev? p = some atom ↔
      ∃ n, world.IsLast (fun other => p other = true) n atom := by
  rw [Array.findRev?_eq_find?_reverse, Array.find?_eq_some_iff_getElem]
  constructor
  · rintro ⟨holds, n, bound, rfl, before⟩
    rw [Array.size_reverse] at bound
    rw [Array.getElem_reverse] at holds ⊢
    refine ⟨world.atoms.size - 1 - n, Array.getElem?_eq_getElem _, holds, ?_⟩
    intro m other higher found
    obtain ⟨inside, rfl⟩ := Array.getElem?_eq_some_iff.mp found
    have earlier := before (world.atoms.size - 1 - m) (by omega)
    rw [Array.getElem_reverse] at earlier
    have back : world.atoms.size - 1 - (world.atoms.size - 1 - m) = m := by omega
    simpa [back] using earlier
  · rintro ⟨n, here, holds, after⟩
    obtain ⟨bound, rfl⟩ := Array.getElem?_eq_some_iff.mp here
    have back : world.atoms.size - 1 - (world.atoms.size - 1 - n) = n := by omega
    refine ⟨holds, world.atoms.size - 1 - n, by rw [Array.size_reverse]; omega, ?_, ?_⟩
    · simp [back]
    · intro m lower
      rw [Array.getElem_reverse]
      simpa using after (world.atoms.size - 1 - m) _ (by omega)
        (Array.getElem?_eq_getElem (by omega))

/-! ## Coherence -/

section Coherence

variable (numbered : world.Numbered) (few : world.atoms.size ≤ 65536)

include numbered few

theorem Numbered.toNat_id {n : Nat} (found : world.atoms[n]? = some atom) :
    atom.id.toNat = n := by
  have bound := (Array.getElem?_eq_some_iff.mp found).1
  rw [numbered n atom found, UInt16.toNat_ofNat']
  omega

theorem Numbered.atom?_of_mem (member : atom ∈ world.atoms) :
    world.atom? atom.id = some atom := by
  obtain ⟨n, bound, rfl⟩ := Array.mem_iff_getElem.mp member
  have found := Array.getElem?_eq_getElem bound
  rw [atom?, numbered.toNat_id few found, found]

/-- What is found through its number is found. -/
theorem Numbered.map_atom {found : Option AtomType} (known : ∀ atom ∈ found, atom ∈ world.atoms) :
    (found.map (·.id)).map world.atom = found := by
  cases found with
  | none => rfl
  | some atom =>
    exact congrArg some (atom_eq_of_atom? (numbered.atom?_of_mem few (known atom rfl)))

theorem Numbered.atomByName?_eq (name : String) :
    world.atomByName? name = world.atoms.find? (·.name == name) :=
  numbered.map_atom few fun _ found => Array.mem_of_find?_eq_some found

theorem Numbered.atomByAlias?_eq (name : String) :
    world.atomByAlias? name = world.atoms.find? (·.aliasName == some name) :=
  numbered.map_atom few fun _ found => Array.mem_of_find?_eq_some found

theorem Numbered.atomByKey?_eq (key : Char) :
    world.atomByKey? key = world.atoms.findRev? (·.key == some key) := by
  refine numbered.map_atom few fun atom found => ?_
  obtain ⟨n, last⟩ := findRev?_iff_isLast.mp found
  exact Array.mem_of_getElem? last.here

end Coherence

section Names

variable (distinct : (world.atoms.toList.map (·.name)).Nodup)

include distinct

/-- A type is found by its name, as no other one has it. -/
theorem find?_name {name : String} :
    world.atoms.find? (·.name == name) = some atom ↔ atom ∈ world.atoms ∧ atom.name = name := by
  constructor
  · intro found
    have same := Array.find?_some found
    exact ⟨Array.mem_of_find?_eq_some found, eq_of_beq same⟩
  · rintro ⟨member, rfl⟩
    obtain ⟨n, bound, rfl⟩ := Array.mem_iff_getElem.mp member
    refine find?_iff_isFirst.mpr ⟨n, Array.getElem?_eq_getElem bound, beq_self_eq_true _, ?_⟩
    intro m other lower found same
    refine List.nodup_iff_getElem?_ne_getElem?.mp distinct m n lower (by simpa using bound) ?_
    simp [found, bound, eq_of_beq same]

theorem idOfName?_eq_some {name : String} {id : AtomId} :
    world.idOfName? name = some id ↔ ∃ atom ∈ world.atoms, atom.name = name ∧ atom.id = id := by
  rw [idOfName?, Option.map_eq_some_iff]
  simp only [find?_name distinct, and_assoc]

end Names

/-- What is found by the name of a type is what is found by its number. -/
theorem Numbered.atomByName?_name (numbered : world.Numbered)
    (distinct : (world.atoms.toList.map (·.name)).Nodup) {n : Nat}
    (found : world.atoms[n]? = some atom) :
    world.atomByName? atom.name = some (world.atom (UInt16.ofNat n)) := by
  have member := Array.mem_of_getElem? found
  rw [atomByName?, (idOfName?_eq_some distinct).mpr ⟨atom, member, rfl, rfl⟩, Option.map_some,
    numbered n atom found]

theorem idOfAlias?_eq_some {name : String} {id : AtomId} :
    world.idOfAlias? name = some id ↔
      ∃ n atom, world.IsFirst (fun other => other.aliasName = some name) n atom ∧ atom.id = id := by
  rw [idOfAlias?, Option.map_eq_some_iff]
  simp only [find?_iff_isFirst, beq_iff_eq]
  constructor
  · rintro ⟨atom, ⟨n, first⟩, same⟩
    exact ⟨n, atom, first, same⟩
  · rintro ⟨n, atom, first, same⟩
    exact ⟨atom, ⟨n, first⟩, same⟩

theorem idOfAlias?_eq_none {name : String} :
    world.idOfAlias? name = none ↔ ∀ atom ∈ world.atoms, atom.aliasName ≠ some name := by
  rw [idOfAlias?, Option.map_eq_none_iff, Array.find?_eq_none]
  simp only [beq_iff_eq, ne_eq]

theorem Numbered.coherent (numbered : world.Numbered) (few : world.atoms.size ≤ 65536)
    (distinct : (world.atoms.toList.map (·.name)).Nodup) : world.Coherent where
  number n atom found := numbered.toNat_id few found
  found n atom found := by
    have here := numbered.atom?_of_mem few (Array.mem_of_getElem? found)
    rw [numbered n atom found] at here
    exact ⟨here, atom_eq_of_atom? here⟩
  named atom member := by
    rw [numbered.atomByName?_eq few]
    exact (find?_name distinct).mpr ⟨member, rfl⟩
  aliased name atom := by
    rw [numbered.atomByAlias?_eq few, find?_iff_isFirst]
    simp only [beq_iff_eq]
  keyed key atom := by
    rw [numbered.atomByKey?_eq few, findRev?_iff_isLast]
    simp only [beq_iff_eq]
  placed symbol id := by
    rw [placeable?, Option.or_eq_some_iff, idOfAlias?_eq_some, idOfAlias?_eq_none,
      idOfName?_eq_some distinct]
  empty := by
    unfold empty
    cases found : world.idOfName? emptyName with
    | some id =>
      obtain ⟨atom, member, name, rfl⟩ := (idOfName?_eq_some distinct).mp found
      exact .inl ⟨atom, member, name, numbered.atom?_of_mem few member⟩
    | none =>
      refine .inr ⟨fun atom member name => ?_, rfl⟩
      rw [(idOfName?_eq_some distinct).mpr ⟨atom, member, name, rfl⟩] at found
      cases found

/-- More types than there are numbers do not have the numbers of their places. -/
theorem Coherent.few (coherent : world.Coherent) : world.atoms.size ≤ 65536 := by
  by_contra many
  have bound : 65536 < world.atoms.size := by omega
  have number := coherent.number 65536 _ (Array.getElem?_eq_getElem bound)
  have := UInt16.toNat_lt world.atoms[65536].id
  omega

end World

/-! ## Declared atoms -/

/-- What a script declares of an atom with its first line. -/
def AtomType.header (atom : AtomType) : String × Option String := (atom.name, atom.aliasName)

namespace Script

theorem AtomChange.header {part : Option Part} {line : List Char} {atom atom' : AtomType}
    (h : AtomChange part line atom atom') : atom'.header = atom.header := by
  cases h <;> rfl

namespace Builder

/-- The atom that a line declares. Before it no block is open and afterwards that of the atom. -/
def declared? (before after : Builder) : Option (String × Option String) :=
  match before.scope, after.scope with
  | .file, .atom atom _ => some atom.header
  | _, _ => none

def headers (b : Builder) : List (String × Option String) := b.allAtoms.map AtomType.header

variable {b b' : Builder} {index : Nat} {line : List Char}

theorem declared?_eq_none (h : b.inFile = true → b'.inFile = true) : declared? b b' = none := by
  unfold inFile at h
  unfold declared?
  cases before : b.scope with
  | atom | ruleset => rfl
  | file =>
    cases after : b'.scope with
    | file | ruleset => rfl
    | atom =>
      rw [before, after] at h
      cases h rfl

/-- A rule more changes no name, and it opens no block. -/
theorem pushNew_kept (rule : Rule) :
    (b.pushNew rule).headers = b.headers ∧ (b.pushNew rule).inFile = b.inFile := by
  have ignores : IgnoresRules AtomType.header := fun atom rule => by
    unfold AtomType.withRule
    split <;> rfl
  refine ⟨map_allAtoms_pushNew ignores b rule, ?_⟩
  cases scope : b.scope with
  | file | ruleset => simp [inFile, pushNew, push, scope]
  | atom atom part => rw [inFile, scope_pushNew scope rule, inFile, scope]

theorem copies_kept (copy : Rule → Rule) (rules : List Rule) :
    (rules.foldl (fun b rule => b.pushNew (copy rule)) b).headers = b.headers ∧
      (rules.foldl (fun b rule => b.pushNew (copy rule)) b).inFile = b.inFile := by
  induction rules generalizing b with
  | nil => exact ⟨rfl, rfl⟩
  | cons rule rest ih =>
    obtain ⟨headers, file⟩ := pushNew_kept (b := b) (copy rule)
    rw [List.foldl_cons, ← headers, ← file]
    exact ih

/-- A line declares an atom of a new name, or it leaves names and aliases as they are. -/
theorem Next.headers_cases (h : b.Next index line b') :
    (b'.headers = b.headers ∧ declared? b b' = none) ∨
      ∃ header, declared? b b' = some header ∧ Form.atomStart.read line = .ok header ∧
        b'.headers = b.headers ++ [header] ∧ header.1 ∉ b.headers.map Prod.fst := by
  cases h with
  | row | pattern | matchLine | effectLine | endMatch | beginMatch | beginEffect | repeatMatch
    | inheritNothing | global | preload | default =>
    exact .inl ⟨rfl, declared?_eq_none fun file => file⟩
  | endEffect draft rows phase finished | repeatEffect draft rows phase before form finished =>
    obtain ⟨-, rfl⟩ := finish_ok finished
    obtain ⟨headers, file⟩ := pushNew_kept (b := refer { b with draft := none } _) _
    exact .inl ⟨headers, declared?_eq_none fun before => file.trans before⟩
  | inherit draft found checked =>
    rw [← Array.foldl_toList]
    obtain ⟨headers, file⟩ := copies_kept (b := b) _ _
    exact .inl ⟨headers, declared?_eq_none fun before => file.trans before⟩
  | @change atom atom' part scope changed =>
    refine .inl ⟨?_, declared?_eq_none fun file => ?_⟩
    · have after := allAtoms_of_atom (b := { b with scope := .atom atom' part }) rfl
      rw [headers, after, headers, allAtoms_of_atom scope, List.map_append, List.map_append,
        List.map_singleton, List.map_singleton, changed.header]
    · rw [inFile, scope] at file
      cases file
  | openPart part scope | closePart draft scope =>
    refine .inl ⟨?_, declared?_eq_none fun file => ?_⟩
    · rw [headers, headers, allAtoms_of_atom scope]
      exact congrArg _ (allAtoms_of_atom rfl)
    · rw [inFile, scope] at file
      cases file
  -- the open type becomes the last of the closed ones
  | closeAtom draft scope =>
    refine .inl ⟨?_, declared?_eq_none fun _ => rfl⟩
    rw [headers, headers, allAtoms_of_atom scope, allAtoms_of_other (by simp)]
    exact congrArg _ Array.toList_push
  | closeRuleset draft scope =>
    refine .inl ⟨?_, declared?_eq_none fun _ => rfl⟩
    rw [headers, headers, allAtoms_of_other (b := b) (by simp [scope]),
      allAtoms_of_other (by simp)]
  | @openAtom name aliasName scope fresh read =>
    refine .inr ⟨(name, aliasName), ?_, read, ?_, ?_⟩
    · rw [declared?, scope]
      rfl
    · rw [headers, headers, allAtoms_of_other (b := b) (by simp [scope]), allAtoms_of_atom rfl,
        List.map_append]
      rfl
    · rw [headers, allAtoms_of_other (by simp [scope])]
      simpa [AtomType.header] using Array.any_eq_false'.mp fresh
  | openRuleset name scope =>
    refine .inl ⟨?_, by rw [declared?, scope]⟩
    rw [headers, headers, allAtoms_of_other (by simp), allAtoms_of_other (by simp [scope])]

end Builder

/-- The names and aliases of the atoms that the lines of a script declare, in order. -/
def declaredAtoms (texts : List (List Char)) : List (String × Option String) :=
  Builder.gather Builder.declared? {} 0 texts

/-- The types that a builder knows are those that have been declared, no two with one name. -/
theorem headers_eq_declared {texts : List (List Char)} {b : Builder}
    (h : Builder.lines {} 0 texts = .ok b) :
    b.headers = declaredAtoms texts ∧ (b.headers.map Prod.fst).Nodup := by
  induction texts using List.reverseRecOn generalizing b with
  | nil =>
    cases h
    exact ⟨rfl, List.nodup_nil⟩
  | append_singleton texts line ih =>
    obtain ⟨b₀, run, accepted⟩ := Builder.lines_append_ok.mp h
    rw [Builder.lines_singleton_ok] at accepted
    obtain ⟨same, distinct⟩ := ih run
    rw [declaredAtoms, Builder.gather_concat run accepted, ← declaredAtoms, ← same]
    rcases (Builder.next_of_line accepted).headers_cases with
      ⟨kept, undeclared⟩ | ⟨header, declared, -, added, fresh⟩
    · rw [kept, undeclared, Option.toList_none, List.append_nil]
      exact ⟨rfl, distinct⟩
    · rw [added, declared, List.map_append, List.map_singleton, List.nodup_append]
      refine ⟨rfl, distinct, List.nodup_singleton _, ?_⟩
      rintro name member _ last rfl
      rw [List.mem_singleton] at last
      exact fresh (last ▸ member)

theorem headers_of_compile {source : List Char} {kept : List Line} {compiled : Compiled}
    (read : lines source = .ok kept) (h : compile source = .ok compiled) :
    compiled.world.atoms.toList.map AtomType.header = declaredAtoms (kept.map (·.text)) ∧
      (compiled.world.atoms.toList.map (·.name)).Nodup := by
  obtain ⟨kept', b, read', run, closed, built⟩ := Builder.exists_build_of_compile h
  rw [read] at read'
  cases read'
  obtain ⟨atoms, -, -⟩ := Builder.build_ok built
  obtain ⟨declared, distinct⟩ := headers_eq_declared run
  have file := (Builder.scope_of_unclosed? closed).2
  rw [Builder.headers, Builder.allAtoms_of_other (by simp [file]), ← atoms] at declared distinct
  rw [List.map_map] at distinct
  exact ⟨declared, distinct⟩

theorem names_nodup {source : List Char} {compiled : Compiled}
    (h : compile source = .ok compiled) : (compiled.world.atoms.toList.map (·.name)).Nodup := by
  obtain ⟨kept, -, read, -⟩ := Builder.exists_build_of_compile h
  exact (headers_of_compile read h).2

/-- In the world of a script the types stand in the order in which they are declared, and the
table of types is coherent if and only if their places fit in their numbers. -/
theorem atomTable_coherent_iff {source : List Char} {kept : List Line} {compiled : Compiled}
    (read : lines source = .ok kept) (h : compile source = .ok compiled) :
    compiled.world.atoms.toList.map AtomType.header = declaredAtoms (kept.map (·.text)) ∧
      (compiled.world.Coherent ↔ compiled.world.atoms.size ≤ 65536) := by
  obtain ⟨declared, distinct⟩ := headers_of_compile read h
  have numbered : compiled.world.Numbered := fun n atom found => (shaped_of_compile h found).id
  exact ⟨declared, World.Coherent.few, fun few => numbered.coherent few distinct⟩

/-- A script with an alias and a key that two atoms share. -/
def quarry : List Char :=
  scriptOf (["atom Sand alias grain \x7b", "section property \x7b", "def key s", "\x7d", "\x7d",
    "atom Empty \x7b", "\x7d",
    "atom Stone alias grain \x7b", "section property \x7b", "def key s", "\x7d", "\x7d"].map
      String.toList)

theorem quarry_coherent : ∃ kept compiled, lines quarry = .ok kept ∧
    compile quarry = .ok compiled ∧
    compiled.world.atoms.toList.map AtomType.header = declaredAtoms (kept.map (·.text)) ∧
    compiled.world.Coherent := by
  have readable : (lines quarry).toOption.isSome = true := by decide +kernel
  have compiles : (compile quarry).toOption.isSome = true := by decide +kernel
  have few : ∀ compiled ∈ (compile quarry).toOption, compiled.world.atoms.size ≤ 65536 := by
    decide +kernel
  obtain ⟨kept, read⟩ := Option.isSome_iff_exists.mp readable
  obtain ⟨compiled, result⟩ := Option.isSome_iff_exists.mp compiles
  have read := eq_ok_of_toOption read
  have h := eq_ok_of_toOption result
  obtain ⟨declared, coherent⟩ := atomTable_coherent_iff read h
  exact ⟨kept, compiled, read, h, declared, coherent.mpr (few compiled result)⟩

/-! ## More atoms than numbers -/

/-- A digit of the names of a crowd. -/
def crowdLetter (digit : Nat) : Char :=
  Char.ofNat (if digit < 26 then 97 + digit else 39 + digit)

/-- A name for each of many atoms. -/
def crowdName (n : Nat) : List Char :=
  crowdLetter (n / 1681) :: crowdLetter (n / 41 % 41) :: crowdLetter (n % 41) ::
    List.replicate (n % 2) 'a'

/-- One atom more than there are numbers. -/
def crowd : List Char := scriptOf (emptyAtoms ((List.range 65537).map crowdName))

theorem crowdLetter_facts : ∀ d < 41, Text.Scanner.isNameChar (crowdLetter d) = true ∧
    ∀ e < 41, crowdLetter d = crowdLetter e → d = e := by
  decide +kernel

theorem isName_crowdName {n : Nat} (h : n < 65537) : IsName (crowdName n) where
  nonempty := List.cons_ne_nil _ _
  chars c member := by
    simp only [crowdName, List.mem_cons, List.mem_replicate] at member
    rcases member with rfl | rfl | rfl | ⟨-, rfl⟩
    · exact (crowdLetter_facts _ (by omega)).1
    · exact (crowdLetter_facts _ (by omega)).1
    · exact (crowdLetter_facts _ (by omega)).1
    · rfl

theorem crowdName_injective {n m : Nat} (hn : n < 65537) (hm : m < 65537)
    (same : crowdName n = crowdName m) : n = m := by
  simp only [crowdName, List.cons.injEq] at same
  obtain ⟨first, second, third, -⟩ := same
  have first := (crowdLetter_facts _ (by omega)).2 _ (by omega) first
  have second := (crowdLetter_facts _ (by omega)).2 _ (by omega) second
  have third := (crowdLetter_facts _ (by omega)).2 _ (by omega) third
  omega

/-- The last atom of a crowd has the number of the first one, which is found by its name. -/
theorem crowd_incoherent : ∃ compiled first last, compile crowd = .ok compiled ∧
    compiled.world.atoms[0]? = some first ∧ compiled.world.atoms[65536]? = some last ∧
    last.id = 0 ∧ compiled.world.atomByName? last.name = some first ∧ first ≠ last := by
  have distinct : ((List.range 65537).map crowdName).Nodup := by
    refine List.Nodup.map_on (fun n hn m hm same => ?_) List.nodup_range
    exact crowdName_injective (List.mem_range.mp hn) (List.mem_range.mp hm) same
  obtain ⟨compiled, h, names⟩ := exists_compile_emptyAtoms (List.ne_nil_of_length_pos (by simp))
    (fun name member => by
      obtain ⟨n, inside, rfl⟩ := List.mem_map.mp member
      exact isName_crowdName (List.mem_range.mp inside)) distinct
  have size : compiled.world.atoms.size = 65537 := by
    simpa using congrArg List.length names
  have numbered : compiled.world.Numbered := fun n atom found => (shaped_of_compile h found).id
  have different : (compiled.world.atoms.toList.map (·.name)).Nodup := by
    rw [names]
    exact distinct.map fun _ _ same => String.ofList_injective same
  have first := Array.getElem?_eq_getElem (show 0 < compiled.world.atoms.size by omega)
  have last := Array.getElem?_eq_getElem (show 65536 < compiled.world.atoms.size by omega)
  refine ⟨compiled, _, _, h, first, last, ?_, ?_, fun same => ?_⟩
  · rw [numbered 65536 _ last]
    decide
  · rw [numbered.atomByName?_name different last]
    exact congrArg some (World.atom_eq_of_atom? first)
  · refine List.nodup_iff_getElem?_ne_getElem?.mp different 0 65536
      (by decide) (by simp [size]) ?_
    rw [List.getElem?_map, List.getElem?_map, Array.getElem?_toList, Array.getElem?_toList, first,
      last, same]

end Script

end FallingSand
