import FallingSand.Script.Builder

/-!
# The sections of an atom

What the lines of the sections mean that hold no rules: properties, sets, the
values of new cells and colors. Each function gives the atom with what its line
adds.
-/

namespace FallingSand.Script

open FallingSand.Number (readFloat32?)

/-- A line of the section `property`. Two names are special: `color`, and `key`
for the character that selects the atom. -/
def addProperty (line : List Char) (atom : AtomType) : Except Problem AtomType := do
  let (constant, name, value) ← Form.property.read line
  if name = "color" then
    if value = "dynamic".toList then return { atom with color := .dynamic }
    else return { atom with color := .fixed (← Form.color.read value) }
  else if name = "key" then
    match value with
    | [key] => return { atom with key := some key }
    | _ => throw (.invalidValue name value)
  else
    match readFloat32? value with
    | none => throw (.invalidValue name value)
    | some number =>
      if constant then return { atom with constants := atom.constants.insert name number }
      else return { atom with properties := atom.properties.insert name number }

def addDefinition (line : List Char) (atom : AtomType) : Except Problem AtomType := do
  let (name, members) ← Form.definition.read line
  return { atom with definitions := atom.definitions.insert name members }

def addInit (line : List Char) (atom : AtomType) : Except Problem AtomType := do
  let (target, text) ← Form.set.read line
  let value ← compileExpr .absolute text
  return { atom with init := atom.init ++ [(target.name, value)] }

def addColorRule (line : List Char) (atom : AtomType) : Except Problem AtomType := do
  let problem := Problem.syntaxError Form.colorRuleDescription line
  match Text.splitAtFirst? ['=', '>'] line with
  | none => throw problem
  | some (condition, components) =>
    match splitTopLevel components with
    | [r, g, b] =>
      let condition ← compileExpr .absolute condition
      let r ← compileExpr .absolute r
      let g ← compileExpr .absolute g
      let b ← compileExpr .absolute b
      return { atom with colorRules := atom.colorRules ++ [⟨condition, r, g, b⟩] }
    | _ => throw problem

/-- A probability that is written as a parameter or a flag. -/
def readProbability (name : String) (value : List Char) : Except Problem Float :=
  match Number.readFloat? value with
  | none => .error (.invalidValue name value)
  | some p => checkProbability p

def addExtension (line : List Char) (atom : AtomType) : Except Problem AtomType := do
  let (name, parameters) ← Form.extension.read line
  match Movement.ofName? name with
  | none => throw (.unknownExtension name)
  | some movement =>
    let parameters :=
      Table.ofList (parameters.map fun (key, value) => (key, String.ofList value))
    match parameters.get? "repl" with
    | none => throw (.missingParameter name "repl")
    | some replaceable =>
      let probability ← match parameters.get? "prob" with
        | none => pure none
        | some value => some <$> readProbability "prob" value.toList
      return { atom with
        extensions := atom.extensions.push ⟨movement, replaceable, probability, parameters⟩ }

end FallingSand.Script
