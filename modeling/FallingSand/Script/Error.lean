import FallingSand.Expr.Basic
import FallingSand.Files.Reading
import FallingSand.Number.Shortest

/-!
# Script errors

Everything that can be wrong with a script, by cause. What a reader gets to see
is worked out from the cause alone, by `Problem.message` and `Error.message`.
-/

namespace FallingSand.Script

open FallingSand.Expr (ticked)

/-- What is wrong with a line of a script, or with its end. -/
inductive Problem where
  | syntaxError (expected : String) (found : List Char)
  | trailing (expected : String) (text : List Char)
  | expression (error : Expr.Error)
  | misplaced (text : List Char)
  | unknownSection (name : String)
  | unmatchedBrace
  | unterminatedComment
  | duplicateAtom (name : String)
  | invalidBox (x y width height : UInt8)
  | invalidSymmetry (letters : List Char)
  | invalidProbability (p : Float)
  | rowWidth (expected found : Nat)
  | rowCount (expected found : Nat)
  | duplicatePattern
  | missingEffectPattern
  | unknownEffectSymbol (symbol : String)
  | bindOutsideBox (x y width height : UInt8)
  | ruleOpen
  | nothingToRepeat
  | unknownExtension (name : String)
  | missingParameter (name parameter : String)
  | invalidValue (name : String) (value : List Char)
  | unknownFlag (name : String)
  | unexpectedEnd (block : String)
  deriving DecidableEq

def Problem.message : Problem → String
  | .syntaxError expected found =>
    "expected " ++ expected ++ ", found " ++ ticked (String.ofList found)
  | .trailing expected text =>
    "unexpected " ++ ticked (String.ofList text) ++ " after " ++ expected
  | .expression error => error.message
  | .misplaced text => ticked (String.ofList text) ++ " is not allowed here"
  | .unknownSection name => "unknown section " ++ ticked name
  | .unmatchedBrace => "unmatched " ++ ticked "\x7d"
  | .unterminatedComment => "unterminated block comment"
  | .duplicateAtom name => "atom " ++ ticked name ++ " is already declared"
  | .invalidBox x y width height =>
    s!"invalid rule box: anchor ({x}, {y}) in {width}x{height}"
  | .invalidSymmetry letters =>
    "unknown symmetry " ++ ticked (String.ofList letters) ++ " (expected x, y or xy)"
  | .invalidProbability p =>
    "probability " ++ Number.floatText p ++ " is outside [0, 1]"
  | .rowWidth expected found => s!"pattern row has {found} symbols, expected {expected}"
  | .rowCount expected found => s!"pattern has {found} rows, expected {expected}"
  | .duplicatePattern => "pattern declared twice in one block"
  | .missingEffectPattern => "effect maps a pattern but declares none"
  | .unknownEffectSymbol symbol =>
    "effect symbol " ++ ticked symbol ++ " is not bound by `def` and names no atom or alias"
  | .bindOutsideBox x y width height =>
    s!"bind coordinate ({x}, {y}) lies outside the {width}x{height} rule box"
  | .ruleOpen => "previous rule is still open"
  | .nothingToRepeat => "no previous rule to repeat"
  | .unknownExtension name =>
    "unknown extension " ++ ticked name ++ " (expected fall, sandLike or randomMove)"
  | .missingParameter name parameter =>
    "extension " ++ ticked name ++ " is missing parameter " ++ ticked parameter
  | .invalidValue name value =>
    "invalid value " ++ ticked (String.ofList value) ++ " for " ++ ticked name
  | .unknownFlag name => "unknown flag " ++ ticked ("-" ++ name)
  | .unexpectedEnd block => "unexpected end of script inside " ++ block

/-- Why there is no world for a script. -/
inductive Error where
  | onLine (number : Nat) (problem : Problem)
  | noAtoms
  | unreadable (failure : Files.ReadFailure)
  deriving DecidableEq

def Error.message : Error → String
  | .onLine number problem => s!"line {number}: " ++ problem.message
  | .noAtoms => "Script declares no atoms"
  | .unreadable failure => "Failed to read script: " ++ failure.message

/-- What a reader should know of a script that compiles. -/
inductive Warning where
  /-- Rules are inherited from a name that is no atom and no rule set. -/
  | nothingInherited (name : String)
  /-- A set has a member that is no atom. -/
  | unknownMember (atom set member : String)
  deriving DecidableEq, Repr

namespace Warning

def message : Warning → String
  | .nothingInherited _ => "inherit names no atom or ruleset, no rules copied"
  | .unknownMember .. => "Set member is not a declared atom"

/-- The names that a warning is about, each with its role. -/
def details : Warning → List (String × String)
  | .nothingInherited name => [("name", name)]
  | .unknownMember atom set member => [("atom", atom), ("member", member), ("set", set)]

end Warning

end FallingSand.Script
