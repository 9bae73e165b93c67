import FallingSand.Proofs.Script.Numbering

/-!
# What lines do to atoms

A line opens an atom, or changes the open one, or adds rules to it, or leaves all atoms as they
are (`Builder.Next.atomsStep`). What is looked at of atoms that has nothing to do with their rules
is changed in the first two cases only.
-/

namespace FallingSand.Script.Builder

variable {α : Type} {f : AtomType → α} {b b' : Builder} {index : Nat} {line : List Char}

/-- Whether what is looked at of an atom has nothing to do with its rules. -/
def IgnoresRules (f : AtomType → α) : Prop := ∀ atom rule, f (atom.withRule rule) = f atom

theorem map_allAtoms_pushNew (ignores : IgnoresRules f) (b : Builder) (rule : Rule) :
    (b.pushNew rule).allAtoms.map f = b.allAtoms.map f := by
  cases scope : b.scope with
  | file | ruleset => simp [allAtoms, openAtom?, pushNew, push, scope]
  | atom atom part =>
    rw [allAtoms_of_atom (scope_pushNew scope rule), allAtoms_of_atom scope, List.map_append,
      List.map_append, List.map_singleton, List.map_singleton, ignores]
    rfl

theorem map_allAtoms_copies (ignores : IgnoresRules f) (copy : Rule → Rule) (rules : List Rule)
    (b : Builder) : (rules.foldl (fun b rule => b.pushNew (copy rule)) b).allAtoms.map f =
      b.allAtoms.map f := by
  induction rules generalizing b with
  | nil => rfl
  | cons rule rest ih => exact (ih _).trans (map_allAtoms_pushNew ignores b (copy rule))

/-- What a line does to the atoms, looked at apart from their rules. -/
inductive AtomsStep (f : AtomType → α) (b : Builder) (line : List Char) (b' : Builder) : Prop
  | kept : b'.allAtoms.map f = b.allAtoms.map f → AtomsStep f b line b'
  | changed {closed : List AtomType} {atom atom' : AtomType} {part : Option Part} :
      b.scope = .atom atom part → AtomChange part line atom atom' → b.Outside →
      b.allAtoms = closed ++ [atom] → b'.allAtoms = closed ++ [atom'] → AtomsStep f b line b'
  | opened {name : String} {aliasName : Option String} :
      Form.atomStart.read line = .ok (name, aliasName) → b.Outside →
      b'.allAtoms = b.allAtoms ++ [{ id := UInt16.ofNat b.atoms.size, name, aliasName,
                                     definitions := Table.ofList b.globals }] →
      AtomsStep f b line b'

theorem Next.atomsStep (ignores : IgnoresRules f) (h : b.Next index line b') :
    AtomsStep f b line b' := by
  cases h with
  | row | pattern | matchLine | effectLine | endMatch | beginMatch | beginEffect | repeatMatch
    | inheritNothing | preload | default | global => exact .kept rfl
  | endEffect _ _ _ finished | repeatEffect _ _ _ _ _ finished =>
    obtain ⟨-, rfl⟩ := finish_ok finished
    exact .kept (map_allAtoms_pushNew ignores (refer { b with draft := none } _) _)
  | inherit =>
    rw [← Array.foldl_toList]
    exact .kept (map_allAtoms_copies ignores _ _ b)
  | change scope changed outside =>
    exact .changed scope changed outside (allAtoms_of_atom scope) (allAtoms_of_atom rfl)
  | openPart part scope | closePart draft scope =>
    refine .kept (congrArg _ ?_)
    rw [allAtoms_of_atom scope]
    exact allAtoms_of_atom rfl
  -- the open type becomes the last of the closed ones
  | closeAtom draft scope =>
    refine .kept (congrArg _ ?_)
    rw [allAtoms_of_atom scope, allAtoms_of_other (by simp)]
    exact Array.toList_push
  | closeRuleset draft scope | openRuleset name scope =>
    refine .kept (congrArg _ ?_)
    rw [allAtoms_of_other (b := b) (by simp [scope])]
    exact allAtoms_of_other (by simp)
  | openAtom scope fresh read outside =>
    refine .opened read outside ?_
    rw [allAtoms_of_other (b := b) (by simp [scope])]
    exact allAtoms_of_atom rfl

end FallingSand.Script.Builder
