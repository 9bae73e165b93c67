import FallingSand.Proofs.Engine.Fitting
import FallingSand.Proofs.Script.SetLines

/-!
# Sets as a script declares them

At every point of a script the builder has the sets that the lines so far declare
(`Builder.Told`), so the sets of a compiled atom are those of its lines. Members are names and
aliases, and stand for the atoms that have them, wherever these are declared
(`membership_of_script`).
-/

namespace FallingSand.Script

/-! ## The sets of a script -/

section

variable {texts : List (List Char)} {text : List Char} {b b' : Builder} {index : Nat}

theorem setLines_concat (run : Builder.lines {} 0 texts = .ok b) :
    setLines (texts ++ [text]) = setLines texts ++ (b.setLine? text).toList := by
  have earlier : ∀ n ∈ List.range texts.length,
      setLineAt? (texts ++ [text]) n = setLineAt? texts n := by
    intro n inside
    have bound := List.mem_range.mp inside
    rw [setLineAt?, List.take_append_of_le_length bound.le, List.getElem?_append_left bound,
      setLineAt?]
  have last : setLineAt? (texts ++ [text]) texts.length = b.setLine? text := by
    rw [setLineAt?, List.take_left, run, List.getElem?_concat_length]
    rfl
  rw [setLines, List.length_append, List.length_singleton, List.range_succ, List.filterMap_append,
    List.filterMap_congr earlier, setLines]
  congr 1
  rw [List.filterMap_cons, last]
  cases b.setLine? text <;> rfl

/-- The sets of a builder are those that its lines declare. -/
structure Builder.Told (seen : List SetLine) (b : Builder) : Prop where
  globals : b.globals = globalSets seen
  opened : ∀ entry ∈ b.setTables, SetLine.opens entry.1 ∈ seen
  members : ∀ entry ∈ b.setTables, ∀ set, entry.2.get? set = declaredMembers? entry.1 set seen
  distinct : (b.setTables.map Prod.fst).Nodup
  fresh : ∀ name ∉ b.setTables.map Prod.fst,
    SetLine.opens name ∉ seen ∧ ownSets name seen = []

namespace Builder.Told

variable {seen : List SetLine}

theorem step (told : b.Told seen) {line? : Option SetLine} (next : SetStep b b' line?) :
    b'.Told (seen ++ line?.toList) := by
  cases next with
  | other same =>
    obtain ⟨globals, tables⟩ := same
    rw [Option.toList_none, List.append_nil]
    exact ⟨globals.trans told.globals, tables ▸ told.opened, tables ▸ told.members,
      tables ▸ told.distinct, tables ▸ told.fresh⟩
  | @global set members globals tables =>
    rw [Option.toList_some]
    refine ⟨?_, ?_, ?_, ?_, ?_⟩
    · rw [globals, told.globals]
      simp [globalSets]
    · intro entry member
      exact List.mem_append_left _ (told.opened entry (tables ▸ member))
    · intro entry member set
      rw [tables] at member
      rw [told.members entry member, declaredMembers?_concat (told.opened entry member) rfl]
    · exact tables ▸ told.distinct
    · intro name new
      obtain ⟨unopened, noOwn⟩ := told.fresh name (tables ▸ new)
      exact ⟨by simpa using unopened, by simpa [ownSets] using noOwn⟩
  | @opens name globals fresh tables =>
    rw [Option.toList_some]
    obtain ⟨unopened, noOwn⟩ := told.fresh name fresh
    refine ⟨?_, ?_, ?_, ?_, ?_⟩
    · rw [globals, told.globals]
      simp [globalSets]
    · intro entry member
      rw [tables] at member
      rcases List.mem_append.mp member with old | new
      · exact List.mem_append_left _ (told.opened entry old)
      · rw [List.mem_singleton.mp new]
        exact List.mem_append_right _ (List.mem_singleton_self _)
    · intro entry member set
      rw [tables] at member
      rcases List.mem_append.mp member with old | new
      · rw [told.members entry old, declaredMembers?_concat (told.opened entry old) rfl]
      · rw [List.mem_singleton.mp new, Table.get?_ofList, told.globals,
          declaredMembers?_opens unopened noOwn]
    · rw [tables, List.map_append, List.nodup_append]
      refine ⟨told.distinct, List.nodup_singleton _, ?_⟩
      rintro other member _ last rfl
      obtain rfl : other = name := by simpa using last
      exact fresh member
    · intro other new
      rw [tables, List.map_append, List.mem_append, not_or] at new
      obtain ⟨unopened', none'⟩ := told.fresh other new.1
      have apart : other ≠ name := by simpa using new.2
      exact ⟨by simpa [unopened'] using apart, by simpa [ownSets] using none'⟩
  | @own name set members closed table globals before after =>
    rw [Option.toList_some]
    have opened : SetLine.opens name ∈ seen := told.opened (name, table) (by simp [before])
    have names : b'.setTables.map Prod.fst = b.setTables.map Prod.fst := by simp [before, after]
    -- no other atom has the name of the open one
    have apart : ∀ entry ∈ closed, entry.1 ≠ name := by
      have distinct := told.distinct
      rw [before, List.map_append, List.nodup_append] at distinct
      intro entry member same
      exact distinct.2.2 _ (List.mem_map_of_mem member) name (by simp) same
    refine ⟨?_, ?_, ?_, names ▸ told.distinct, ?_⟩
    · rw [globals, told.globals]
      simp [globalSets]
    · intro entry member
      rw [after] at member
      rcases List.mem_append.mp member with old | new
      · exact List.mem_append_left _ (told.opened entry (by simp [before, old]))
      · rw [List.mem_singleton.mp new]
        exact List.mem_append_left _ opened
    · intro entry member other
      rw [after] at member
      rcases List.mem_append.mp member with old | new
      · have known : entry ∈ b.setTables := by simp [before, old]
        have silent : ownSets entry.1 [.own name set members] = [] := by
          simp [ownSets, (apart entry old).symm]
        rw [told.members entry known, declaredMembers?_concat (told.opened entry known) silent]
      · rw [List.mem_singleton.mp new, Table.get?_insert, declaredMembers?_own opened,
          told.members (name, table) (by simp [before])]
    · intro other new
      rw [names] at new
      obtain ⟨unopened, noOwn⟩ := told.fresh other new
      have apart : name ≠ other := by
        rintro rfl
        exact unopened opened
      exact ⟨by simpa using unopened, by simpa [ownSets, apart] using noOwn⟩

/-- After any lines the builder has the sets that they declare. -/
theorem of_lines (run : Builder.lines {} 0 texts = .ok b) : b.Told (setLines texts) := by
  induction texts using List.reverseRecOn generalizing b with
  | nil =>
    cases run
    exact ⟨rfl, fun _ member => (nomatch member), fun _ member => (nomatch member),
      List.nodup_nil, fun _ _ => ⟨List.not_mem_nil, rfl⟩⟩
  | append_singleton texts text ih =>
    obtain ⟨b₀, run, accepted⟩ := Builder.lines_append_ok.mp run
    rw [Builder.lines_singleton_ok] at accepted
    rw [setLines_concat run]
    exact (ih run).step (Builder.setStep_of_line accepted)

end Builder.Told

theorem definitions_of_compile {source : List Char} {kept : List Line} {compiled : Compiled}
    (read : lines source = .ok kept) (h : compile source = .ok compiled) {owner : AtomType}
    (among : owner ∈ compiled.world.atoms) (set : String) :
    owner.definitions.get? set =
      declaredMembers? owner.name set (setLines (kept.map (·.text))) := by
  obtain ⟨kept', b, read', run, closed, built⟩ := Builder.exists_build_of_compile h
  rw [read] at read'
  cases read'
  obtain ⟨atoms, -, -⟩ := Builder.build_ok built
  have file := (Builder.scope_of_unclosed? closed).2
  refine (Builder.Told.of_lines run).members (owner.name, owner.definitions) ?_ set
  rw [Builder.setTables_of_other (by simp [file]), ← atoms]
  exact List.mem_map_of_mem (Array.mem_toList_iff.mpr among)

end

/-! ## Members -/

/-- Whether an atom is listed among the members of a set, by its name or by its alias. -/
def Listed (members : List SetMember) (atom : AtomType) : Prop :=
  .atom atom.name ∈ members ∨ ∃ aliasName, atom.aliasName = some aliasName ∧
    .aliased aliasName ∈ members

/-- Members stand for the atoms that are listed among them, wherever these are declared. -/
theorem denotes_iff_listed {world : World} (numbered : world.Numbered)
    (few : world.atoms.size ≤ 65536) {atom : AtomType} (among : atom ∈ world.atoms)
    (members : List SetMember) :
    (∃ member ∈ members, world.Denotes member atom.id) ↔ Listed members atom := by
  have same {other : AtomType} (among' : other ∈ world.atoms) (id : other.id = atom.id) :
      other = atom := by
    have found := numbered.atom?_of_mem few among'
    rw [id, numbered.atom?_of_mem few among] at found
    exact (Option.some.inj found).symm
  constructor
  · rintro ⟨member, listed, stands⟩
    cases member with
    | atom name =>
      obtain ⟨other, among', rfl, id⟩ := stands
      rw [same among' id] at listed
      exact .inl listed
    | aliased name =>
      obtain ⟨other, among', named, id⟩ := stands
      rw [same among' id] at named
      exact .inr ⟨name, named, listed⟩
  · rintro (listed | ⟨name, named, listed⟩)
    · exact ⟨_, listed, atom, among, rfl, rfl⟩
    · exact ⟨_, listed, atom, among, named, rfl⟩

/-- The sets of an atom are those that the lines of the script declare. What belongs to a set is
listed among its members; a name without a set stands for the atoms with that alias, and nothing
is excluded by it. -/
theorem membership_of_script {source : List Char} {kept : List Line} {compiled : Compiled}
    (read : lines source = .ok kept) (h : compile source = .ok compiled)
    (few : compiled.world.atoms.size ≤ 65536) {owner atom : AtomType}
    (owns : owner ∈ compiled.world.atoms) (among : atom ∈ compiled.world.atoms) (set : String) :
    let seen := setLines (kept.map (·.text))
    owner.definitions.get? set = declaredMembers? owner.name set seen ∧
      ((owner.definitions.get? set).isSome = true ↔
        (∃ members, (set, members) ∈ ownSets owner.name seen) ∨
          ∃ members, (set, members) ∈ globalsBefore owner.name seen) ∧
      (∀ members, owner.definitions.get? set = some members →
        (compiled.world.isMember owner set atom.id = true ↔ Listed members atom) ∧
          compiled.world.isNotMember owner set atom.id =
            !compiled.world.isMember owner set atom.id) ∧
      (owner.definitions.get? set = none →
        (compiled.world.isMember owner set atom.id = true ↔ atom.aliasName = some set) ∧
          compiled.world.isNotMember owner set atom.id = true) := by
  intro seen
  have declared : owner.definitions.get? set = declaredMembers? owner.name set seen :=
    definitions_of_compile read h owns set
  have numbered : compiled.world.Numbered := fun n atom found => (shaped_of_compile h found).id
  refine ⟨declared, ?_, ?_, ?_⟩
  · rw [declared, declaredMembers?, Option.isSome_or, Bool.or_eq_true, isSome_lastOf?,
      isSome_lastOf?]
  · intro members defined
    have contained : compiled.world.setContains? owner set atom.id =
        some (members.any (compiled.world.memberIs · atom.id)) := by
      rw [World.setContains?, defined, Option.map_some]
    constructor
    · rw [World.isMember, contained, ← denotes_iff_listed numbered few among]
      simp only [List.any_eq_true, World.memberIs_iff (names_nodup h)]
    · rw [World.isNotMember, World.isMember, contained]
      rfl
  · intro undefined
    have contained : compiled.world.setContains? owner set atom.id = none := by
      rw [World.setContains?, undefined, Option.map_none]
    constructor
    · rw [World.isMember, contained, numbered.atom?_of_mem few among]
      exact beq_iff_eq
    · rw [World.isNotMember, contained]
      rfl

/-- A script with a global set that one atom declares anew and another one keeps, with members
that are declared later. -/
def foundry : List Char :=
  scriptOf (["global heavy \x7b Lead, ^ore \x7d",
    "atom Sand alias grain \x7b", "section definition \x7b", "def heavy \x7b Sand \x7d",
    "def heavy \x7b ^metal \x7d", "\x7d", "\x7d",
    "global heavy \x7b Sand \x7d",
    "atom Stone alias ore \x7b", "\x7d", "atom Lead alias metal \x7b", "\x7d"].map String.toList)

theorem foundry_membership : ∃ kept compiled sand lead, lines foundry = .ok kept ∧
    compile foundry = .ok compiled ∧ sand ∈ compiled.world.atoms ∧ lead ∈ compiled.world.atoms ∧
    sand.definitions.get? "heavy" =
      declaredMembers? sand.name "heavy" (setLines (kept.map (·.text))) ∧
    sand.definitions.get? "heavy" = some [.aliased "metal"] ∧
    compiled.world.isMember sand "heavy" lead.id = true ∧
    compiled.world.isNotMember sand "heavy" lead.id = false ∧
    lead.definitions.get? "grain" = none ∧
    compiled.world.isMember lead "grain" sand.id = true ∧
    compiled.world.isNotMember lead "grain" sand.id = true := by
  have readable : (lines foundry).toOption.isSome = true := by decide +kernel
  have compiles : (compile foundry).toOption.isSome = true := by decide +kernel
  have headers : ∀ compiled ∈ (compile foundry).toOption,
      compiled.world.atoms.toList.map AtomType.header =
        [("Sand", some "grain"), ("Stone", some "ore"), ("Lead", some "metal")] := by
    decide +kernel
  have seen : ∀ kept ∈ (lines foundry).toOption,
      declaredMembers? "Sand" "heavy" (setLines (kept.map (·.text))) = some [.aliased "metal"] ∧
        declaredMembers? "Lead" "grain" (setLines (kept.map (·.text))) = none := by
    decide +kernel
  obtain ⟨kept, read⟩ := Option.isSome_iff_exists.mp readable
  obtain ⟨compiled, result⟩ := Option.isSome_iff_exists.mp compiles
  obtain ⟨heavy, grain⟩ := seen kept read
  have headers := headers compiled result
  have read := eq_ok_of_toOption read
  have h := eq_ok_of_toOption result
  have few : compiled.world.atoms.size ≤ 65536 := by
    have size := congrArg List.length headers
    simp only [List.length_map, Array.length_toList] at size
    rw [size]
    decide
  have declared (header : String × Option String)
      (member : header ∈ [("Sand", some "grain"), ("Stone", some "ore"), ("Lead", some "metal")]) :
      ∃ atom ∈ compiled.world.atoms, atom.header = header := by
    rw [← headers] at member
    obtain ⟨atom, among, same⟩ := List.mem_map.mp member
    exact ⟨atom, Array.mem_toList_iff.mp among, same⟩
  obtain ⟨sand, among, sandHeader⟩ := declared ("Sand", some "grain") (by decide)
  obtain ⟨lead, among', leadHeader⟩ := declared ("Lead", some "metal") (by decide)
  obtain ⟨sandName, sandAlias⟩ := Prod.mk.inj sandHeader
  obtain ⟨leadName, leadAlias⟩ := Prod.mk.inj leadHeader
  obtain ⟨heavySand, -, members, -⟩ := membership_of_script read h few among among' "heavy"
  obtain ⟨grainLead, -, -, aliases⟩ := membership_of_script read h few among' among "grain"
  have heavyMembers : sand.definitions.get? "heavy" = some [.aliased "metal"] := by
    rw [heavySand, sandName, heavy]
  have grainMissing : lead.definitions.get? "grain" = none := by rw [grainLead, leadName, grain]
  obtain ⟨belongs, other⟩ := members _ heavyMembers
  have metal : compiled.world.isMember sand "heavy" lead.id = true :=
    belongs.mpr (.inr ⟨"metal", leadAlias, List.mem_singleton_self _⟩)
  obtain ⟨belongs', excludes⟩ := aliases grainMissing
  exact ⟨kept, compiled, sand, lead, read, h, among, among', heavySand, heavyMembers, metal,
    by rw [other, metal]; rfl, grainMissing, belongs'.mpr sandAlias, excludes⟩

end FallingSand.Script
