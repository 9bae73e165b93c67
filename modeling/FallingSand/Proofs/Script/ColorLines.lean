import FallingSand.Proofs.Script.AtomSteps
import FallingSand.Proofs.Script.AtomTable
import FallingSand.Proofs.Script.Blocks
import Mathlib.Data.List.Forall2

/-!
# Lines of color rules

In a section `color` each line is a color rule, unless it closes the section or declares something
for the whole script. The color rules of an atom are those that are written in these lines, in the
order of the lines (`colorRules_of_compile`).
-/

namespace FallingSand.Script

namespace Builder

/-- The first words of the lines that may stand in any section. -/
def commonWords : List String := ["global", "preload", "default"]

/-- The color rule that a line is where it stands, still as text, with the name of its atom. -/
def colorLine? (b : Builder) (text : List Char) : Option (String × List Char) :=
  match b.scope with
  | .atom atom (some .color) =>
    if b.Outside ∧ text ≠ closing ∧ keyword text ∉ commonWords then some (atom.name, text)
    else none
  | _ => none

/-- The color rules that some lines are, still as text, each with the name of its atom. -/
def colorLines (b : Builder) (index : Nat) : List (List Char) → List (String × List Char)
  | [] => []
  | text :: rest =>
    (b.colorLine? text).toList ++
      match b.line index text with
      | .ok next => next.colorLines (index + 1) rest
      | .error _ => []

end Builder

/-- What stands under a name in a list of entries. -/
def under {α : Type} (name : String) (entries : List (String × α)) : List α :=
  entries.filterMap fun (other, x) => if other = name then some x else none

/-- The lines of a script that are color rules of the atom with a name. -/
def colorLinesOf (name : String) (texts : List (List Char)) : List (List Char) :=
  under name (Builder.colorLines {} 0 texts)

namespace Builder

variable {b b' : Builder} {index : Nat} {text : List Char} {atom : AtomType}

/-! ## Single lines -/

/-- A closing brace that stands outside the blocks of rules leaves all atoms as they are. -/
theorem allAtoms_of_closing (outside : b.Outside) {part : Part}
    (scope : b.scope = .atom atom (some part)) (h : b.line index closing = .ok b') :
    b'.allAtoms = b.allAtoms := by
  have closes : b.close = .ok b' := by
    unfold line at h
    cases draft : b.draft with
    | none =>
      rw [draft] at h
      exact h
    | some d =>
      simpa only [draft, (outside d draft).1, Nat.lt_irrefl, if_false, closing, if_true] using h
  unfold close at closes
  cases draft : b.draft with
  | none =>
    rw [draft, scope] at closes
    cases closes
    rw [allAtoms_of_atom scope]
    exact allAtoms_of_atom rfl
  | some d =>
    simp only [draft, (outside d draft).2] at closes
    cases closes

/-- A line in a section `color` leaves all atoms as they are or is a color rule of the open one. -/
theorem colorLine?_of_line (outside : b.Outside) (scope : b.scope = .atom atom (some .color))
    (h : b.line index text = .ok b') :
    (b.colorLine? text = none ∧ b'.allAtoms = b.allAtoms) ∨
      b.colorLine? text = some (atom.name, text) ∧ ∃ rule, WrittenIn rule text ∧
        b'.allAtoms = b.atoms.toList ++
          [{ atom with colorRules := atom.colorRules ++ [rule] }] := by
  have known : b.colorLine? text =
      if b.Outside ∧ text ≠ closing ∧ keyword text ∉ commonWords then some (atom.name, text)
      else none := by
    rw [colorLine?, scope]
  by_cases closes : text = closing
  · subst closes
    exact .inl ⟨by rw [known, if_neg (by simp)], allAtoms_of_closing outside scope h⟩
  rw [line_eq_outerLine outside closes] at h
  have common {word : String} (starts : keyword text = word) (member : word ∈ commonWords) :
      b.colorLine? text = none := by
    rw [known, if_neg (by simp [starts, member])]
  unfold outerLine at h
  split at h
  · rename_i starts
    obtain ⟨entry, -, h⟩ := bind_eq_ok.mp h
    cases h
    exact .inl ⟨common starts (by decide), rfl⟩
  · rename_i starts
    obtain ⟨corners, -, h⟩ := bind_eq_ok.mp h
    cases h
    exact .inl ⟨common starts (by decide), rfl⟩
  · rename_i starts
    obtain ⟨entry, -, h⟩ := bind_eq_ok.mp h
    cases h
    exact .inl ⟨common starts (by decide), rfl⟩
  · rw [openAtom, inFile, scope] at h
    cases h
  · rw [openRuleset, inFile, scope] at h
    cases h
  · rw [openPart, scope] at h
    cases h
  · rename_i noGlobal noPreload noDefault _ _ _
    have other : keyword text ∉ commonWords := by
      simpa [commonWords] using ⟨noGlobal, noPreload, noDefault⟩
    unfold bodyLine at h
    rw [scope] at h
    obtain ⟨atom', added, h⟩ := bind_eq_ok.mp h
    cases h
    obtain ⟨rule, written, rfl⟩ := addColorRule_ok added
    exact .inr ⟨by rw [known, if_pos ⟨outside, closes, other⟩], rule, written,
      allAtoms_of_atom rfl⟩

/-- The color rules of the atoms with a name, so far. -/
def colorRulesOf (name : String) (b : Builder) : List ColorRule :=
  b.allAtoms.flatMap fun atom => if atom.name = name then atom.colorRules else []

/-- A line adds the color rule that is written in it to those of its atom, if it is one. -/
theorem exists_colorRulesOf (name : String) (h : b.line index text = .ok b') :
    ∃ more, b'.colorRulesOf name = b.colorRulesOf name ++ more ∧
      List.Forall₂ WrittenIn more (under name (b.colorLine? text).toList) := by
  have unchanged (silent : b.colorLine? text = none)
      (same : b'.colorRulesOf name = b.colorRulesOf name) :
      ∃ more, b'.colorRulesOf name = b.colorRulesOf name ++ more ∧
        List.Forall₂ WrittenIn more (under name (b.colorLine? text).toList) :=
    ⟨[], by rw [same, List.append_nil], by rw [silent]; exact .nil⟩
  by_cases inColors : b.Outside ∧ ∃ atom, b.scope = .atom atom (some .color)
  · obtain ⟨outside, atom, scope⟩ := inColors
    obtain ⟨silent, same⟩ | ⟨told, rule, written, after⟩ := colorLine?_of_line outside scope h
    · exact unchanged silent (by rw [colorRulesOf, same, colorRulesOf])
    · have before := allAtoms_of_atom scope
      by_cases own : atom.name = name
      · refine ⟨[rule], by simp [colorRulesOf, before, after, own], ?_⟩
        simpa [told, under, own] using written
      · refine ⟨[], by simp [colorRulesOf, before, after, own], ?_⟩
        simp [told, under, own]
  · -- anywhere else no line changes the color rules of an atom
    have silent : b.colorLine? text = none := by
      unfold colorLine?
      split
      · rename_i atom scope
        exact if_neg fun outside => inColors ⟨outside.1, atom, scope⟩
      · rfl
    refine unchanged silent ?_
    have ignores : IgnoresRules fun atom : AtomType =>
        if atom.name = name then atom.colorRules else [] := fun atom rule => by
      unfold AtomType.withRule
      split <;> rfl
    cases (next_of_line h).atomsStep ignores with
    | kept same => rw [colorRulesOf, colorRulesOf, List.flatMap_def, List.flatMap_def, same]
    | changed scope changed outside before after =>
      cases changed with
      | colorRule here _ => exact absurd ⟨outside, _, here ▸ scope⟩ inColors
      | color | key | constant | property | definition | init | extension =>
        simp [colorRulesOf, before, after]
    | opened read outside after => simp [colorRulesOf, after]

/-! ## Whole scripts -/

theorem under_append {α : Type} {name : String} {entries more : List (String × α)} :
    under name (entries ++ more) = under name entries ++ under name more :=
  List.filterMap_append

theorem exists_colorRulesOf_of_lines (name : String) {texts : List (List Char)}
    (h : b.lines index texts = .ok b') :
    ∃ more, b'.colorRulesOf name = b.colorRulesOf name ++ more ∧
      List.Forall₂ WrittenIn more (under name (b.colorLines index texts)) := by
  induction texts generalizing b index with
  | nil =>
    cases h
    exact ⟨[], (List.append_nil _).symm, .nil⟩
  | cons text rest ih =>
    obtain ⟨next, accepted, h⟩ := lines_cons_ok.mp h
    obtain ⟨first, same, written⟩ := exists_colorRulesOf name accepted
    obtain ⟨second, same', written'⟩ := ih h
    refine ⟨first ++ second, by rw [same', same, List.append_assoc], ?_⟩
    rw [colorLines, accepted, under_append]
    exact List.rel_append written written'

end Builder

/-- Under the name of an atom there is only that atom, if names are distinct. -/
theorem flatMap_of_name {α : Type} {f : AtomType → List α} {atoms : List AtomType}
    {atom : AtomType} (distinct : (atoms.map (·.name)).Nodup) (among : atom ∈ atoms) :
    (atoms.flatMap fun other => if other.name = atom.name then f other else []) = f atom := by
  obtain ⟨before, after, rfl⟩ := List.append_of_mem among
  rw [List.map_append, List.map_cons, List.nodup_middle, List.nodup_cons] at distinct
  have apart {others : List AtomType} (part : ∀ other ∈ others, other ∈ before ++ after) :
      (others.flatMap fun other => if other.name = atom.name then f other else []) = [] := by
    rw [List.flatMap_eq_nil_iff]
    intro other member
    refine if_neg fun same => distinct.1 ?_
    rw [← List.map_append, ← same]
    exact List.mem_map_of_mem (part other member)
  rw [List.flatMap_append, List.flatMap_cons, if_pos rfl,
    apart fun _ => List.mem_append_left _, apart fun _ => List.mem_append_right _,
    List.nil_append, List.append_nil]

/-- The color rules of an atom are those that are written in its lines of the script, in this
order. -/
theorem colorRules_of_compile {source : List Char} {kept : List Line} {compiled : Compiled}
    (read : lines source = .ok kept) (h : compile source = .ok compiled) {atom : AtomType}
    (among : atom ∈ compiled.world.atoms) :
    List.Forall₂ WrittenIn atom.colorRules (colorLinesOf atom.name (kept.map (·.text))) := by
  obtain ⟨kept', b, read', reached, closed, built⟩ := Builder.exists_build_of_compile h
  rw [read] at read'
  cases read'
  obtain ⟨more, same, written⟩ := Builder.exists_colorRulesOf_of_lines atom.name reached
  have atoms : b.allAtoms = compiled.world.atoms.toList := by
    rw [(Builder.build_ok built).1]
    exact Builder.allAtoms_of_other (by simp [(Builder.scope_of_unclosed? closed).2])
  have blank : Builder.colorRulesOf atom.name {} = [] := rfl
  rw [blank, List.nil_append, Builder.colorRulesOf, atoms] at same
  rwa [← same, flatMap_of_name (names_nodup h) (Array.mem_toList_iff.mpr among)] at written

end FallingSand.Script
