import FallingSand.Text.Split

/-!
# Paths

A path leads to a file step by step: into something of a name, up to the directory
that holds the present one, or nowhere. It starts at the root if a slash stands in
front, and wherever its reader is otherwise. Several slashes between two steps
count as one. A slash at the end says that a directory is meant.
-/

namespace FallingSand.Files

inductive Step where
  | stay
  | up
  | into (name : String)
  deriving DecidableEq, Repr

/-- A path that was read. -/
structure Path where
  /-- Whether it starts at the root. -/
  absolute : Bool
  steps : List Step
  /-- Whether a slash stands at the end. -/
  closed : Bool
  deriving DecidableEq, Repr

namespace Path

/-- The step that a text between slashes stands for, if there is any text. -/
def step? : List Char → Option Step
  | [] => none
  | ['.'] => some .stay
  | ['.', '.'] => some .up
  | name => some (.into (String.ofList name))

def ofString (text : String) : Path where
  absolute := text.toList.head? == some '/'
  steps := (Text.parts '/' text.toList).filterMap step?
  closed := text.toList.getLast? == some '/'

/-- The name of the file: that of the last step that leads anywhere, unless it leads
up. -/
def fileName? (path : Path) : Option String :=
  match path.steps.reverse.find? (· != .stay) with
  | some (.into name) => some name
  | _ => none

def extension? (path : Path) : Option String := do
  let name := (← path.fileName?).toList.reverse
  match Text.splitAtFirst? ['.'] name with
  | some (last, _ :: _) => some (String.ofList last.reverse)
  | _ => none

end Path

end FallingSand.Files
