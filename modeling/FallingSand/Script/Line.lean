import FallingSand.Text.Blank
import FallingSand.Text.Split

/-!
# Script lines

A script is read line by line. Comments are taken out first: `//` hides the
rest of its line, and `/*` hides everything up to the next `*/`, on later lines
too, and leaves one space. Of the lines that are left, trimmed, those with
something on them are kept together with their numbers.
-/

namespace FallingSand.Script

open FallingSand.Text

/-- A line with something on it. -/
structure Line where
  /-- The number of the line in the script, from one. -/
  number : Nat
  text : List Char
  deriving DecidableEq, Repr

/-- What is left of a line without its comments, and the line on which a comment
that goes on was opened. `opened` is the line of a comment that came before. -/
def uncomment (number : Nat) (opened : Option Nat) (text : List Char) :
    List Char × Option Nat :=
  match opened with
  | some start =>
    match _close : splitAtFirst? ['*', '/'] text with
    | some (_, after) => uncomment number none after
    | none => ([], some start)
  | none =>
    match splitAtFirst? ['/', '/'] text, _open : splitAtFirst? ['/', '*'] text with
    | some (code, _), none => (code, none)
    | none, none => (text, none)
    | some (code, _), some (before, after) =>
      if before.length < code.length then
        let (more, opened) := uncomment number (some number) after
        (before ++ ' ' :: more, opened)
      else (code, none)
    | none, some (before, after) =>
      let (more, opened) := uncomment number (some number) after
      (before ++ ' ' :: more, opened)
termination_by text.length
decreasing_by
  all_goals
    first
    | have := length_splitAtFirst? _close
      simp only [List.length_cons, List.length_nil] at this
      omega
    | have := length_splitAtFirst? _open
      simp only [List.length_cons, List.length_nil] at this
      omega

/-- The kept lines among raw lines that start at a number. -/
def keptLines (number : Nat) (opened : Option Nat) :
    List (List Char) → List Line × Option Nat
  | [] => ([], opened)
  | raw :: rest =>
    let (code, opened) := uncomment number opened raw
    let (kept, opened) := keptLines (number + 1) opened rest
    let text := trim code
    (if text.isEmpty then kept else ⟨number, text⟩ :: kept, opened)

/-- The lines of a script, or the line on which a comment is opened that is
never closed. -/
def lines (source : List Char) : Except Nat (List Line) :=
  match keptLines 1 none (Text.lines source) with
  | (kept, none) => .ok kept
  | (_, some opened) => .error opened

end FallingSand.Script
