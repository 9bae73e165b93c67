import FallingSand.Proofs.Script.Lockstep

/-!
# Worlds of scripts in lockstep

What a builder makes of the lines is built into a world, unless a block is open or a symbol
is unknown. Builders that differ in probabilities are built into worlds that do, so scripts
whose lines are read in lockstep compile alike: `compile_retuned`.
-/

namespace FallingSand.Script

namespace Builder

variable {marked : List Nat} {p : Float} {b b' : Builder}

theorem Retuned.unclosed?_isSome (h : Retuned marked p b b') :
    b'.unclosed?.isSome = b.unclosed?.isSome := by
  unfold unclosed?
  rw [h.draft, h.scope]
  split
  · rfl
  · cases b.scope with
    | file => rfl
    | ruleset name rules => rfl
    | atom atom part => cases part <;> rfl

end Builder

section World

variable {marked : List Nat} {p : Float}

theorem idOfName?_retune (world : World) (name : String) :
    (world.retune marked p).idOfName? name = world.idOfName? name := by
  unfold World.idOfName? World.retune
  rw [Array.find?_map, Option.map_map]
  rfl

theorem placeable?_retune (world : World) (symbol : String) :
    (world.retune marked p).placeable? symbol = world.placeable? symbol := by
  unfold World.placeable?
  rw [idOfName?_retune]
  unfold World.idOfAlias? World.retune
  rw [Array.find?_map, Option.map_map]
  rfl

theorem unknownMembers_retune (world : World) :
    unknownMembers (world.retune marked p) = unknownMembers world := by
  unfold unknownMembers
  simp only [idOfName?_retune]
  unfold World.retune
  rw [Array.toList_map, List.flatMap_map]
  rfl

theorem build?_retune (atoms : Array AtomType) (defaults : Properties)
    (preload : List ColorRange) :
    World.build? (atoms.map (AtomType.retune marked p)) defaults preload =
      (World.build? atoms defaults preload).map (World.retune marked p) := by
  unfold World.build?
  by_cases nonempty : 0 < atoms.size
  · rw [dif_pos nonempty, dif_pos (by rwa [Array.size_map])]
    rfl
  · rw [dif_neg nonempty, dif_neg (by rwa [Array.size_map])]
    rfl

/-- Whether there is a problem with a reference depends on the symbols alone. -/
theorem find?_references_eq_none {world : World} {references : List (Nat × String)} :
    references.find? (fun (_, symbol) => (world.placeable? symbol).isNone) = none ↔
      ∀ symbol ∈ references.map Prod.snd, (world.placeable? symbol).isSome := by
  rw [List.find?_eq_none, List.forall_mem_map]
  simp [Option.isSome_iff_ne_none]

end World

namespace Builder

/-- The worlds differ in the probabilities of the marked rules. -/
theorem Retuned.build (h : Retuned marked p b b') :
    Parallel (fun compiled compiled' => compiled' = compiled.retune marked p) b.build
      b'.build := by
  cases h with
  | @intro rulesets effectLine references marks tables symbols =>
    unfold Builder.build retune
    dsimp only
    rw [build?_retune]
    cases World.build? b.atoms b.defaults b.preload with
    | none => exact .error _ _
    | some world =>
      dsimp only [Option.map_some]
      have known : references.find? (fun (_, symbol) =>
            ((world.retune marked p).placeable? symbol).isNone) = none ↔
          b.references.find? (fun (_, symbol) => (world.placeable? symbol).isNone) = none := by
        rw [find?_references_eq_none, find?_references_eq_none]
        simp only [placeable?_retune, symbols]
        rfl
      cases unknown : b.references.find? (fun (_, symbol) => (world.placeable? symbol).isNone) with
      | none =>
        rw [known.mpr unknown, unknownMembers_retune]
        exact .ok rfl
      | some entry =>
        cases unknown' : references.find? (fun (_, symbol) =>
            ((world.retune marked p).placeable? symbol).isNone) with
        | none =>
          rw [known.mp unknown'] at unknown
          cases unknown
        | some entry' => exact .error _ _

end Builder

/-- The lines that are kept of a script, whatever their numbers. -/
def Reads (source : List Char) (texts : List (List Char)) : Prop :=
  (lines source).toOption.map (List.map Line.text) = some texts

instance {source : List Char} {texts : List (List Char)} : Decidable (Reads source texts) :=
  inferInstanceAs (Decidable (_ = _))

/-- A script of some lines, each of which is kept. -/
def scriptOf (texts : List (List Char)) : List Char := texts.flatMap fun text => text ++ ['\n']

/-- What lines that have been read make of a builder makes the world. -/
theorem toOption_compile {source : List Char} {texts : List (List Char)}
    (reads : Reads source texts) :
    (compile source).toOption = (Builder.lines {} 0 texts).toOption.bind fun b =>
      if b.unclosed?.isSome then none else b.build.toOption := by
  unfold Reads at reads
  unfold compile compileLines
  cases read : lines source with
  | error opened =>
    rw [read] at reads
    cases reads
  | ok kept =>
  rw [read] at reads
  obtain rfl : kept.map (·.text) = texts := Option.some.inj reads
  dsimp only
  cases Builder.lines {} 0 (kept.map (·.text)) with
  | error stop => rfl
  | ok b =>
    dsimp only [Except.toOption, Option.bind_some]
    cases b.unclosed? with
    | some problem => rfl
    | none =>
      cases b.build with
      | error e => rfl
      | ok compiled => rfl

/-- Scripts that lead to builders that differ in probabilities compile to worlds that do,
or neither of them compiles. -/
theorem compile_retuned {source source' : List Char} {texts texts' : List (List Char)}
    {marked : List Nat} {p : Float} (reads : Reads source texts) (reads' : Reads source' texts')
    (h : Parallel (Builder.Retuned marked p) (Builder.lines {} 0 texts)
      (Builder.lines {} 0 texts')) :
    (compile source').toOption = (compile source).toOption.map (Compiled.retune marked p) := by
  rw [toOption_compile reads, toOption_compile reads']
  generalize Builder.lines {} 0 texts = read at h
  generalize Builder.lines {} 0 texts' = read' at h
  cases h with
  | error stop stop' => rfl
  | @ok b b' related =>
    dsimp only [Except.toOption, Option.bind_some]
    rw [related.unclosed?_isSome]
    split
    · rfl
    have built := related.build
    generalize b.build = result at built
    generalize b'.build = result' at built
    cases built with
    | error e e' => rfl
    | ok same => exact congrArg some same

end FallingSand.Script
