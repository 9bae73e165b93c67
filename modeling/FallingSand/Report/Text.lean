import FallingSand.Board.Snapshot
import FallingSand.World.Basic

/-!
# Reports as text

What the command line prints: a table of the atom types of a world, the number
of cells of each type in a snapshot, and the snapshot itself with one character
for each cell.
-/

namespace FallingSand.Report

/-- The text with blanks before it up to a width. -/
def alignRight (width : Nat) (text : String) : String :=
  String.ofList (List.replicate (width - text.length) ' ') ++ text

/-- The text with blanks after it up to a width. -/
def alignLeft (width : Nat) (text : String) : String :=
  text ++ String.ofList (List.replicate (width - text.length) ' ')

/-- A channel of a color in two hexadecimal digits. -/
def channelText (channel : UInt8) : String :=
  let digit (n : Nat) : Char := (Nat.digitChar n).toUpper
  String.ofList [digit (channel.toNat / 16), digit (channel.toNat % 16)]

/-- How the cells of a type are colored. -/
def colorText (atom : AtomType) : String :=
  match atom.color with
  | .fixed c => "#" ++ channelText c.r ++ channelText c.g ++ channelText c.b
  | .dynamic => s!"dynamic({atom.colorRules.length})"

/-- The line of a type in the summary of a world. -/
def atomLine (atom : AtomType) : String :=
  let key := match atom.key with
    | some key => key.toString
    | none => "-"
  alignRight 3 (toString atom.id) ++ " " ++ alignLeft 12 atom.name
    ++ " alias=" ++ alignLeft 6 (atom.aliasName.getD "-") ++ " key=" ++ key
    ++ " color=" ++ colorText atom
    ++ s!" rules={atom.rules.size} always={atom.alwaysRules.size} ext={atom.extensions.size}"

/-- A table of the types of a world. -/
def summary (world : World) : String :=
  let last := s!"{world.atoms.size} atoms, {world.ruleCount} rules, empty = "
    ++ (world.atom world.empty).name
  String.join ((world.atoms.toList.map atomLine ++ [last]).map (· ++ "\n"))

/-- Whether a type with its number of cells is listed before another one: the
larger number first, and of equal ones the smaller name. -/
def listedBefore (a b : String × Nat) : Bool :=
  b.2 < a.2 || (a.2 == b.2 && a.1 ≤ b.1)

/-- The types that are there, with the number of their cells. -/
def counts (world : World) (s : Snapshot) : List (String × Nat) :=
  let present := s.population.toList.zipIdx.filterMap fun (count, n) =>
    if count = 0 then none
    else (world.atom? (UInt16.ofNat n)).map fun atom => (atom.name, count)
  present.mergeSort listedBefore

/-- The number of cells of each type that is there, in one line. -/
def populationLine (world : World) (s : Snapshot) : String :=
  String.intercalate " " ((counts world s).map fun (name, count) => s!"{name}={count}")

/-- The character for the cells of a type. -/
def glyph (world : World) (id : AtomId) : Char :=
  if id = world.empty then '.'
  else match world.atom? id with
    | none => '?'
    | some atom => (atom.key.or atom.name.toList.head?).getD '#'

/-- A snapshot with one character for each cell. -/
def dump (world : World) (s : Snapshot) : String :=
  let row (y : Nat) : List Char :=
    (List.range s.size.columns).map fun x =>
      glyph world (((s.cell? (Vec.ofNat x y)).map (·.atom)).getD world.empty)
  String.join ((List.range s.size.rows).map fun y => String.ofList (row y ++ ['\n']))

end FallingSand.Report
