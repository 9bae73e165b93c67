import FallingSand.Script.Line
import FallingSand.Script.Rules
import FallingSand.World.Basic

/-!
# Compiling scripts

`Builder.line` is the meaning of a single line, in the block that it stands in.
A script is the lines that are left without comments, taken in order from an
empty builder; at its end every block has to be closed, and every symbol that
some effect places has to have an atom. The first problem is the answer.

Compiling lines knows nothing of line numbers: a problem is found on the line
with an index, and the number of that line is put in afterwards.
-/

namespace FallingSand.Script

namespace Builder

def openAtom (b : Builder) (line : List Char) : Except Problem Builder := do
  if !b.inFile then throw (.misplaced "atom".toList)
  let (name, aliasName) ← Form.atomStart.read line
  if b.atoms.any (·.name == name) then throw (.duplicateAtom name)
  let atom : AtomType :=
    { id := UInt16.ofNat b.atoms.size, name, aliasName
      definitions := Table.ofList b.globals }
  return { b with scope := .atom atom none, previous := none }

/-- Opens a rule set, which replaces one of the same name. -/
def openRuleset (b : Builder) (line : List Char) : Except Problem Builder := do
  if !b.inFile then throw (.misplaced "ruleset".toList)
  let name ← Form.rulesetStart.read line
  return { b with scope := .ruleset name #[], previous := none }

def openPart (b : Builder) (line : List Char) : Except Problem Builder := do
  match b.scope with
  | .atom atom none =>
    let name ← Form.sectionStart.read line
    match Part.ofName? name with
    | some part => return { b with scope := .atom atom (some part) }
    | none => throw (.unknownSection name)
  | _ => throw (.misplaced "section".toList)

def close (b : Builder) : Except Problem Builder :=
  match b.draft with
  | some d =>
    match d.phase with
    | .matching => .ok { b with draft := some { d with phase := .between, patterned := false } }
    | .effect => finish { b with draft := none } d.rule
    | .between => .error .ruleOpen
  | none =>
    match b.scope with
    | .atom atom (some _) => .ok { b with scope := .atom atom none }
    | .atom atom none => .ok { b with atoms := b.atoms.push atom, scope := .file }
    | .ruleset name rules =>
      .ok { b with rulesets := b.rulesets.insert name rules, scope := .file }
    | .file => .error .unmatchedBrace

/-- A line that belongs to the open block. -/
def bodyLine (b : Builder) (index : Nat) (line : List Char) : Except Problem Builder :=
  let inAtom (add : List Char → AtomType → Except Problem AtomType) (atom : AtomType)
      (part : Part) : Except Problem Builder := do
    return { b with scope := .atom (← add line atom) (some part) }
  match b.scope with
  | .ruleset _ _ => b.ruleLine index line
  | .atom atom (some part) =>
    match part with
    | .update => b.ruleLine index line
    | .property => inAtom addProperty atom part
    | .definition => inAtom addDefinition atom part
    | .init => inAtom addInit atom part
    | .color => inAtom addColorRule atom part
  | _ => .error (misplaced line)

/-- A line outside match and effect blocks. -/
def outerLine (b : Builder) (index : Nat) (line : List Char) : Except Problem Builder := do
  match keyword line with
  | "global" =>
    let (name, members) ← Form.global.read line
    return { b with globals := b.globals ++ [(name, members)] }
  | "preload" =>
    let (first, second) ← Form.preload.read line
    return { b with preload := b.preload ++ [.between first (second.getD first)] }
  | "default" =>
    let (name, value) ← Form.defaultValue.read line
    return { b with defaults := b.defaults.insert name value.toFloat.toFloat32 }
  | "atom" => b.openAtom line
  | "ruleset" => b.openRuleset line
  | "section" => b.openPart line
  | _ => b.bodyLine index line

/-- A line of a match or effect block. -/
def blockLine (b : Builder) (index : Nat) (d : Draft) (line : List Char) :
    Except Problem Builder := do
  if line = "pattern".toList then
    let draft ← d.beginPattern
    let effectLine := if d.phase = .effect then index else b.effectLine
    return { b with draft := some draft, effectLine }
  else if d.phase = .matching then
    return { b with draft := some (← d.matchLine line) }
  else
    return { b with draft := some (← d.effectLine b.inRuleset line) }

def line (b : Builder) (index : Nat) (text : List Char) : Except Problem Builder := do
  let closes := text = ['\x7d']
  match b.draft with
  | some d =>
    if 0 < d.rowsLeft then
      if closes then
        let height := d.rule.height.toNat
        throw (.rowCount height (height - d.rowsLeft))
      else return { b with draft := some (← d.patternRow text) }
    else if closes then b.close
    else if d.phase = .between then b.outerLine index text
    else b.blockLine index d text
  | none => if closes then b.close else b.outerLine index text

/-- The problem of a script that ends here, if some block is still open. -/
def unclosed? (b : Builder) : Option Problem :=
  if b.draft.isSome then some (.unexpectedEnd "rule")
  else match b.scope with
    | .file => none
    | .atom _ (some _) => some (.unexpectedEnd "section")
    | .atom _ none => some (.unexpectedEnd "atom")
    | .ruleset _ _ => some (.unexpectedEnd "ruleset")

/-- The builder after some lines, the first of which has the given index; or a
problem and the index of its line. -/
def lines (b : Builder) (index : Nat) : List (List Char) → Except (Nat × Problem) Builder
  | [] => .ok b
  | text :: rest =>
    match b.line index text with
    | .ok b => b.lines (index + 1) rest
    | .error problem => .error (index, problem)

end Builder

/-- A compiled script. -/
structure Compiled where
  world : World
  warnings : List Warning

/-- Why lines do not make a world. -/
inductive LinesError where
  | onLine (index : Nat) (problem : Problem)
  | noAtoms
  deriving DecidableEq

/-- The members of sets that are no atoms. -/
def unknownMembers (world : World) : List Warning :=
  world.atoms.toList.flatMap fun atom =>
    atom.definitions.entries.flatMap fun (set, members) =>
      members.filterMap fun
        | .atom member =>
          if (world.idOfName? member).isSome then none
          else some (.unknownMember atom.name set member)
        | .aliased _ => none

/-- Makes a world of what the lines declare. -/
def Builder.build (b : Builder) : Except LinesError Compiled :=
  match World.build? b.atoms b.defaults b.preload with
  | none => .error .noAtoms
  | some world =>
    match b.references.find? fun (_, symbol) => (world.placeable? symbol).isNone with
    | some (index, symbol) => .error (.onLine index (.unknownEffectSymbol symbol))
    | none => .ok ⟨world, b.warnings ++ unknownMembers world⟩

def compileLines (texts : List (List Char)) : Except LinesError Compiled :=
  match Builder.lines {} 0 texts with
  | .error (index, problem) => .error (.onLine index problem)
  | .ok b =>
    match b.unclosed? with
    | some problem => .error (.onLine (texts.length - 1) problem)
    | none => b.build

def compile (source : List Char) : Except Error Compiled :=
  match lines source with
  | .error opened => .error (.onLine opened .unterminatedComment)
  | .ok kept =>
    (compileLines (kept.map (·.text))).mapError fun
      | .noAtoms => .noAtoms
      | .onLine index problem => .onLine ((kept[index]?.map (·.number)).getD 0) problem

/-- Compiles a script that is given in bytes, if it could be read. -/
def compileBytes (bytes : Except Files.Failure ByteArray) : Except Error Compiled :=
  match Files.decode bytes with
  | .error failure => .error (.unreadable failure)
  | .ok source => compile source.toList

end FallingSand.Script
