import FallingSand.Config.Basic
import FallingSand.Script.Error
import FallingSand.Simulation.Basic

/-!
# Trouble

What the command line tells when it gives up: what went wrong, and under it the
causes one after the other, the nearest first.
-/

namespace FallingSand

/-- What went wrong, and why. -/
structure CommandLine.Trouble where
  message : String
  causes : List String := []
  deriving DecidableEq, Repr

/-- The texts of an error and of its causes. -/
def Script.Error.chain (error : Script.Error) : List String :=
  match error with
  | .unreadable failure => [error.message, failure.message]
  | _ => [error.message]

@[inherit_doc Script.Error.chain]
def Config.Error.chain (error : Config.Error) : List String :=
  match error with
  | .unreadable failure => [error.message, failure.message]
  | _ => [error.message]

@[inherit_doc Script.Error.chain]
def Engine.Error.chain (error : Engine.Error) : List String :=
  match error with
  | .eval inner => [error.message, inner.message]
  | _ => [error.message]

@[inherit_doc Script.Error.chain]
def Simulation.Error.chain (error : Simulation.Error) : List String :=
  match error with
  | .action inner => inner.chain
  | _ => [error.message]

namespace CommandLine.Trouble

/-- The trouble of a chain of texts, the first of which says what went wrong. -/
def ofChain : List String → Trouble
  | [] => ⟨"", []⟩
  | message :: causes => ⟨message, causes⟩

/-- The text with blanks before every line but the first. -/
def indentRest (blanks : Nat) (text : String) : List Char :=
  text.toList.flatMap fun c => if c = '\n' then '\n' :: List.replicate blanks ' ' else [c]

/-- The line of a cause; causes are numbered if there are several. -/
def causeText (number : Option Nat) (cause : String) : String :=
  match number with
  | some n => s!"    {n}: " ++ String.ofList (indentRest 7 cause)
  | none => "    " ++ String.ofList (indentRest 4 cause)

def text (trouble : Trouble) : String :=
  let causes := match trouble.causes with
    | [] => []
    | [cause] => ["", "Caused by:", causeText none cause]
    | causes => ["", "Caused by:"] ++ causes.zipIdx.map fun (cause, n) => causeText (some n) cause
  String.join ((("Error: " ++ trouble.message) :: causes).map (· ++ "\n"))

end CommandLine.Trouble

end FallingSand
