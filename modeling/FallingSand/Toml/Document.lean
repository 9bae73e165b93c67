import FallingSand.Toml.Value

/-!
# Configuration files

A file is a sequence of lines: headers, keys with values, and nothing. What a
key means depends on the header before it.
-/

namespace FallingSand.Toml

open FallingSand.Text (Scanner)
open FallingSand.Text.Scanner

/-- A line. -/
inductive Statement where
  | blank
  | table (path : Path)
  /-- A header of an element of an array of tables. -/
  | element (path : Path)
  | pair (path : Path) (value : Node)

def statementBody : Scanner Statement :=
  (do literal "[["; let path ← key; literal "]]"; return .element path)
  <|> (do char '['; let path ← key; char ']'; return .table path)
  <|> (do let (path, node) ← pair (value depthLimit); return .pair path node)

/-- A line with its end; there is none where no text is left. -/
def statement : Scanner Statement := fun text =>
  if text.isEmpty then none
  else (do
    gap
    let content ← optional statementBody
    lineEnd
    return content.getD .blank : Scanner Statement) text

/-- The tree so far, and the header that keys belong to. -/
structure Draft where
  root : Entries := []
  header : Path := []

def Draft.add? (d : Draft) : Statement → Option Draft
  | .blank => some d
  | .table path => return ⟨← d.root.open? path, path⟩
  | .element path => return ⟨← d.root.append? path, path⟩
  | .pair path node => return { d with root := ← d.root.insertUnder? d.header path node }

/-- The tree of a text, which may start with a byte order mark. -/
def read? (text : List Char) : Option Entries := do
  let text := match text with
    | '\ufeff' :: rest => rest
    | _ => text
  let (statements, rest) ← many statement text
  if rest.isEmpty then return (← statements.foldlM Draft.add? {}).root else none

end FallingSand.Toml
