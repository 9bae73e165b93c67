/-!
# Nodes of configuration files

A configuration file is a tree of named nodes. Tables may be written in pieces,
under a header or by keys with dots, and how a table came to be decides what may
still be added to it: a table may have one header, keys with dots only extend
tables that such keys made, and an inline table is complete as it stands.

`Entries.insert?`, `Entries.open?` and `Entries.append?` add to a tree what the
rules allow, and have no result where they forbid it.
-/

namespace FallingSand.Toml

/-- How a table came to be. -/
inductive Origin where
  /-- By a header of its own, or as an element of an array of tables. -/
  | header
  /-- By a header of a table inside it. -/
  | implied
  /-- By a key with dots. -/
  | dotted
  /-- As a value. -/
  | inline
  deriving DecidableEq, Repr

/-- A node. Of numbers with a fraction and of dates only the kind is known. -/
inductive Node where
  | string (text : List Char)
  | integer (value : Int)
  | boolean (value : Bool)
  | float
  | moment
  | array (items : List Node)
  | table (origin : Origin) (entries : List (String × Node))
  /-- An array of tables that are written under headers, the last one first. -/
  | tables (last : List (String × Node)) (earlier : List (List (String × Node)))

/-- The named nodes of a table. -/
abbrev Entries := List (String × Node)

/-- A key with its dots taken out. -/
abbrev Path := List String

namespace Entries

/-- Changes the node of a name, which is `none` if there is none so far. -/
def update? (name : String) (f : Option Node → Option Node) : Entries → Option Entries
  | [] => return [(name, ← f none)]
  | (n, node) :: rest =>
    if n = name then return (n, ← f (some node)) :: rest
    else return (n, node) :: (← update? name f rest)

/-- Adds a value under a key inside a table. -/
def insert? (path : Path) (value : Node) (entries : Entries) : Option Entries :=
  match path with
  | [] => none
  | [name] => entries.update? name fun
    | none => some value
    | some _ => none
  | name :: rest => entries.update? name fun
    | none => return .table .dotted (← insert? rest value [])
    | some (.table .dotted inner) => return .table .dotted (← insert? rest value inner)
    | some (.table .implied inner) =>
      if rest.length = 1 then none else return .table .implied (← insert? rest value inner)
    | some (.tables last earlier) =>
      if rest.length = 1 then none else return .tables (← insert? rest value last) earlier
    | _ => none

/-- Adds a table for each name of a path, and changes the last one. -/
def descend? (f : Option Node → Option Node) (path : Path) (entries : Entries) :
    Option Entries :=
  match path with
  | [] => none
  | [name] => entries.update? name f
  | name :: rest => entries.update? name fun
    | none => return .table .implied (← descend? f rest [])
    | some (.table .inline _) => none
    | some (.table origin inner) => return .table origin (← descend? f rest inner)
    | some (.tables last earlier) => return .tables (← descend? f rest last) earlier
    | _ => none

/-- Adds the table of a header. -/
def open? : Path → Entries → Option Entries :=
  descend? fun
    | none => some (.table .header [])
    | some (.table .implied inner) => some (.table .header inner)
    | _ => none

/-- Adds an element to the array of tables of a header. -/
def append? : Path → Entries → Option Entries :=
  descend? fun
    | none => some (.tables [] [])
    | some (.tables last earlier) => some (.tables [] (last :: earlier))
    | _ => none

/-- Adds a value under a key inside the table of a header. -/
def insertUnder? (header path : Path) (value : Node) (entries : Entries) : Option Entries :=
  let inside : Option Node → Option Node
    | some (.table origin inner) => return .table origin (← insert? path value inner)
    | some (.tables last earlier) => return .tables (← insert? path value last) earlier
    | _ => none
  if header.isEmpty then entries.insert? path value else entries.descend? inside header

def get? (entries : Entries) (name : String) : Option Node :=
  (entries.find? (·.1 == name)).map (·.2)

end Entries

end FallingSand.Toml
