import FallingSand.Files.Path
import FallingSand.Files.Reading

/-!
# Trees of files

A tree says what there is at every place. Every step of a path is taken from a
directory, also a step that leads nowhere. To read a file it has to be there; to
write one it is enough that its directory is there and that no directory has its
name.
-/

namespace FallingSand.Files

/-- What there can be at a place. -/
inductive Entry where
  | file (content : ByteArray)
  | directory

/-- The names that lead from the root to a file or directory, the last one first. -/
abbrev Place := List String

/-- A tree of files, seen from one of its directories. -/
structure Tree where
  /-- What there is at a place. -/
  entry? : Place → Option Entry
  /-- Where paths start that do not start at the root. -/
  here : Place

namespace Tree

/-- The longest name in bytes. -/
def nameLimit : Nat := 255

/-- A place, if there is a directory. -/
def enter (tree : Tree) (place : Place) : Except Failure Place :=
  match tree.entry? place with
  | none => .error .notFound
  | some (.file _) => .error .notADirectory
  | some .directory => .ok place

/-- Where a name in a directory leads. -/
def child (tree : Tree) (place : Place) (name : String) : Except Failure Place := do
  let place ← tree.enter place
  if nameLimit < name.utf8ByteSize then throw .nameTooLong else return name :: place

/-- Takes a step. Above the root there is the root. -/
def step (tree : Tree) (place : Place) : Step → Except Failure Place
  | .stay => tree.enter place
  | .up => return (← tree.enter place).tail
  | .into name => tree.child place name

/-- Takes steps one after the other, from where a path starts. -/
def walk (tree : Tree) (path : Path) (steps : List Step) : Except Failure Place :=
  steps.foldlM tree.step (if path.absolute then [] else tree.here)

/-- The bytes of the file at a path. -/
def read (tree : Tree) (path : Path) : Except Failure ByteArray := do
  let steps := if path.closed then path.steps ++ [.stay] else path.steps
  match tree.entry? (← tree.walk path steps) with
  | none => throw .notFound
  | some .directory => throw .isADirectory
  | some (.file content) => return content

/-- The place of a file that is written to a path. -/
def target (tree : Tree) (path : Path) : Except Failure Place := do
  match path.steps.reverse with
  | .into name :: before =>
    let directory ← tree.enter (← tree.walk path before.reverse)
    if path.closed then throw .isADirectory
    else
      let place ← tree.child directory name
      match tree.entry? place with
      | some .directory => throw .isADirectory
      | _ => return place
  | _ =>
    let _ ← tree.enter (← tree.walk path path.steps)
    throw .isADirectory

end Tree

end FallingSand.Files
