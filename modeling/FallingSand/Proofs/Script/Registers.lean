import FallingSand.Proofs.Script.Lines

/-!
# A compiler with flat registers

`Builder` has no room for a section without an atom or for rows of a pattern
without a rule. A compiler that keeps what is open in registers of their own has:
an index into the atoms, the name of a rule set, a section, a phase, a rule and a
number of rows, which only the lines keep together. Here is that compiler. Where a
line needs something that the registers do not hold, it stops with a `Lack`.

The list that the last rule went to is kept by name (`Bucket`), and the rule is
looked up in it when it is repeated. The text of lines is read by the functions that
the builder uses.
-/

namespace FallingSand.Script

/-- What a line may find missing. -/
inductive Lack where
  /-- The open atom. -/
  | atom
  /-- The open rule. -/
  | draft
  /-- The rule of an effect block that is closed. -/
  | effect
  /-- The block of a pattern. -/
  | block
  /-- Rows of a pattern that lacks more rows than it has. -/
  | rows
  deriving DecidableEq, Repr

/-- Why a line stops: a problem of the script, or a lack. -/
inductive Stop where
  | problem (problem : Problem)
  | lack (lack : Lack)
  deriving DecidableEq

/-- A list that rules go to. -/
inductive Bucket where
  | always | normal | ruleset
  deriving DecidableEq, Repr

/-- What is known between two lines, each piece in a register of its own. -/
structure Registers where
  atoms : Array AtomType := #[]
  /-- The place of the open atom. -/
  current : Option Nat := none
  rulesets : Table (Array Rule) := {}
  /-- The name of the open rule set. -/
  ruleset : Option String := none
  part : Option Part := none
  globals : List (String × List SetMember) := []
  defaults : Properties := {}
  preload : List ColorRange := []
  phase : Phase := .between
  draft : Option Rule := none
  rowsLeft : Nat := 0
  patterned : Bool := false
  nextId : Nat := 0
  /-- Where the last rule went. -/
  bucket : Option Bucket := none
  effectLine : Nat := 0
  references : List (Nat × String) := []
  warnings : List Warning := []

/-- What is read from a line alone can only meet a problem. -/
def checked {α : Type} (m : Except Problem α) : Except Stop α := m.mapError .problem

/-- The rule that a match header opens. -/
def readMatch (line : List Char) : Except Problem Rule := do
  let header ← Form.matchBlock.read line
  let { x, y, width, height, .. } := header
  if width = 0 || height = 0 || width ≤ x || height ≤ y then
    throw (.invalidBox x y width height)
  let symmetry ← match header.symmetry with
    | none => pure Symmetry.none
    | some letters =>
      match Symmetry.read? letters with
      | some symmetry => pure symmetry
      | none => throw (.invalidSymmetry letters)
  let anchor : Vec := ⟨Int32.ofNat x.toNat, Int32.ofNat y.toNat⟩
  return { Rule.blank width height anchor with symmetry }

namespace Registers

variable (r : Registers)

/-! ## The open atom, rule and list -/

def atom? : Option AtomType := r.current.bind fun index => r.atoms[index]?

def setAtom (atom : AtomType) : Registers :=
  match r.current with
  | some index => { r with atoms := r.atoms.setIfInBounds index atom }
  | none => r

def changeAtom (add : AtomType → Except Problem AtomType) : Except Stop Registers :=
  match r.atom? with
  | none => .error (.lack .atom)
  | some atom => do return r.setAtom (← checked (add atom))

def draft? : Option Draft :=
  r.draft.map fun rule =>
    { rule, phase := r.phase, patterned := r.patterned, rowsLeft := r.rowsLeft }

def setDraft (d : Draft) : Registers :=
  { r with draft := some d.rule, phase := d.phase, patterned := d.patterned,
           rowsLeft := d.rowsLeft }

def changeDraft (add : Draft → Except Problem Draft) : Except Stop Registers :=
  match r.draft? with
  | none => .error (.lack .draft)
  | some d => do return r.setDraft (← checked (add d))

/-- The rules of a list of the open atom or of the open rule set. -/
def bucketRules? : Bucket → Option (Array Rule)
  | .ruleset => r.ruleset.bind r.rulesets.get?
  | .always => r.atom?.map (·.alwaysRules)
  | .normal => r.atom?.map (·.rules)

def lastRule? : Option Rule := do (← r.bucketRules? (← r.bucket)).back?

/-! ## Finished rules -/

def push (rule : Rule) : Except Stop Registers :=
  match r.ruleset with
  | some name =>
    let rules := ((r.rulesets.get? name).getD #[]).push rule
    .ok { r with rulesets := r.rulesets.insert name rules, bucket := some .ruleset }
  | none =>
    match r.atom? with
    | none => .error (.lack .atom)
    | some atom =>
      if rule.always then
        .ok { r.setAtom { atom with alwaysRules := atom.alwaysRules.push rule } with
          bucket := some .always }
      else
        .ok { r.setAtom { atom with rules := atom.rules.push rule } with bucket := some .normal }

def pushNew (rule : Rule) : Except Stop Registers :=
  push { r with nextId := r.nextId + 1 } { rule with id := r.nextId }

/-- Notes the symbols of a rule, as the builder notes them. -/
def refer (rule : Rule) : Registers :=
  let noted : Builder := { effectLine := r.effectLine, references := r.references }
  { r with references := (noted.refer rule).references }

def finish (rule : Rule) : Except Stop Registers :=
  if rule.hasMap && rule.effect.size ≠ rule.area then
    .error (.problem .missingEffectPattern)
  else (r.refer rule).pushNew rule

/-! ## Lines among rules -/

def beginMatch (line : List Char) : Except Stop Registers :=
  if r.draft.isSome then .error (.problem .ruleOpen)
  else do
    let rule ← checked (readMatch line)
    return { r with draft := some rule, phase := .matching, patterned := false }

def beginEffect (index : Nat) (line : List Char) : Except Stop Registers := do
  let written ← checked (Form.effectBlock.read line)
  match r.draft with
  | none => .error (.problem (.misplaced "->".toList))
  | some rule =>
    let probability ← checked (match written with
      | none => .ok rule.probability
      | some p => checkProbability p.toFloat)
    return { r with
      draft := some { rule with probability }, phase := .effect, patterned := false
      effectLine := index }

def repeatBlock (line : List Char) : Except Stop Registers := do
  let kind ← checked (Form.repetition.read line)
  match r.lastRule? with
  | none => .error (.problem .nothingToRepeat)
  | some previous =>
    match kind with
    | .matching =>
      if r.draft.isSome then .error (.problem .ruleOpen)
      else .ok { r with draft := some (Builder.rematched previous) }
    | .effect =>
      match r.draft with
      | none => .error (.problem (.misplaced "repeat effect".toList))
      | some rule => finish { r with draft := none } (Builder.reeffected rule previous)

def rulesNamed? (name : String) : Option (Array Rule) :=
  (r.rulesets.get? name).or ((r.atoms.find? (·.name == name)).map (·.rules))

def inherit (line : List Char) : Except Stop Registers :=
  if r.draft.isSome then .error (.problem .ruleOpen)
  else do
    let (name, flags) ← checked (Form.inherit.read line)
    let probability ← checked (Builder.flaggedProbability flags)
    match r.rulesNamed? name with
    | none => return { r with warnings := r.warnings ++ [.nothingInherited name] }
    | some rules =>
      rules.toList.foldlM (fun r rule => r.pushNew (Builder.inheritedCopy probability rule)) r

def ruleLine (index : Nat) (line : List Char) : Except Stop Registers :=
  match keyword line with
  | "match" => r.beginMatch line
  | "->" => r.beginEffect index line
  | "repeat" => r.repeatBlock line
  | "inherit" => r.inherit line
  | "ext" =>
    if r.ruleset.isSome then .error (.problem (misplaced line))
    else r.changeAtom (addExtension line)
  | _ => .error (.problem (misplaced line))

/-! ## Lines outside the blocks of rules -/

def bodyLine (index : Nat) (line : List Char) : Except Stop Registers :=
  if r.ruleset.isSome then r.ruleLine index line
  else match r.part with
    | some .update => r.ruleLine index line
    | some .property => r.changeAtom (addProperty line)
    | some .definition => r.changeAtom (addDefinition line)
    | some .init => r.changeAtom (addInit line)
    | some .color => r.changeAtom (addColorRule line)
    | none => .error (.problem (misplaced line))

def openAtom (line : List Char) : Except Stop Registers :=
  if r.current.isSome || r.ruleset.isSome then .error (.problem (.misplaced "atom".toList))
  else do
    let (name, aliasName) ← checked (Form.atomStart.read line)
    if r.atoms.any (·.name == name) then .error (.problem (.duplicateAtom name))
    else
      let atom : AtomType :=
        { id := UInt16.ofNat r.atoms.size, name, aliasName
          definitions := Table.ofList r.globals }
      return { r with atoms := r.atoms.push atom, current := some r.atoms.size, bucket := none }

def openRuleset (line : List Char) : Except Stop Registers :=
  if r.current.isSome || r.ruleset.isSome then .error (.problem (.misplaced "ruleset".toList))
  else do
    let name ← checked (Form.rulesetStart.read line)
    return { r with rulesets := r.rulesets.insert name #[], ruleset := some name, bucket := none }

def openPart (line : List Char) : Except Stop Registers :=
  if r.current.isNone || r.part.isSome then .error (.problem (.misplaced "section".toList))
  else do
    let name ← checked (Form.sectionStart.read line)
    match Part.ofName? name with
    | some part => return { r with part := some part }
    | none => .error (.problem (.unknownSection name))

def outerLine (index : Nat) (line : List Char) : Except Stop Registers :=
  match keyword line with
  | "global" => do
    let (name, members) ← checked (Form.global.read line)
    return { r with globals := r.globals ++ [(name, members)] }
  | "preload" => do
    let (first, second) ← checked (Form.preload.read line)
    return { r with preload := r.preload ++ [.between first (second.getD first)] }
  | "default" => do
    let (name, value) ← checked (Form.defaultValue.read line)
    return { r with defaults := r.defaults.insert name value.toFloat.toFloat32 }
  | "atom" => r.openAtom line
  | "ruleset" => r.openRuleset line
  | "section" => r.openPart line
  | _ => r.bodyLine index line

/-! ## Every line -/

/-- Starts the pattern of the open block. -/
def beginPattern (index : Nat) : Except Stop Registers :=
  if r.patterned then .error (.problem .duplicatePattern)
  else match r.draft?, r.phase with
    | none, _ => .error (.lack .draft)
    | some _, .between => .error (.lack .block)
    | some d, .matching => do return r.setDraft (← checked d.beginPattern)
    | some d, .effect => do
      return { r.setDraft (← checked d.beginPattern) with effectLine := index }

def close : Except Stop Registers :=
  match r.phase with
  | .matching => .ok { r with phase := .between, patterned := false }
  | .effect =>
    match r.draft with
    | none => .error (.lack .effect)
    | some rule => finish { r with phase := .between, patterned := false, draft := none } rule
  | .between =>
    if r.draft.isSome then .error (.problem .ruleOpen)
    else if r.part.isSome then .ok { r with part := none }
    else if r.ruleset.isSome then .ok { r with ruleset := none }
    else if r.current.isSome then .ok { r with current := none }
    else .error (.problem .unmatchedBrace)

def line (index : Nat) (text : List Char) : Except Stop Registers :=
  let closes := text = ['\x7d']
  let opens := text = "pattern".toList
  if 0 < r.rowsLeft then
    if closes then
      let height := (r.draft.map (·.height.toNat)).getD 0
      if height < r.rowsLeft then .error (.lack .rows)
      else .error (.problem (.rowCount height (height - r.rowsLeft)))
    else r.changeDraft (·.patternRow text)
  else if closes then r.close
  else match r.phase with
    | .matching => if opens then r.beginPattern index else r.changeDraft (·.matchLine text)
    | .effect =>
      if opens then r.beginPattern index
      else r.changeDraft (·.effectLine r.ruleset.isSome text)
    | .between => r.outerLine index text

/-- The registers after some lines, the first of which has the given index. -/
def lines (r : Registers) (index : Nat) : List (List Char) → Except (Nat × Stop) Registers
  | [] => .ok r
  | text :: rest =>
    match r.line index text with
    | .ok r => r.lines (index + 1) rest
    | .error stop => .error (index, stop)

end Registers

end FallingSand.Script
