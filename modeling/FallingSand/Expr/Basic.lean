import FallingSand.Expr.Evaluation
import FallingSand.Expr.Formula.Reader
import FallingSand.Expr.Token

/-!
# Expressions

An expression is a formula with bracket tokens in it. Each property token gets a
slot of its own, in the order of the text, and each distinct random token gets a
range; a variable takes the place of every token, and the text is read as a
formula.

Evaluation looks up every slot first, in order, and goes no further at the
first one that has no value. Then it draws from each range once, and only then
evaluates the formula.
-/

namespace FallingSand

open FallingSand.Expr
open FallingSand.Random (WordSource)

namespace Expr

/-- A property that an expression reads, at an offset from its anchor. -/
structure Slot where
  name : String
  offset : Vec
  deriving DecidableEq, Repr

/-- How box coordinates are taken. -/
inductive Mode where
  /-- In a rule: relative to the anchor of its box. -/
  | rule (anchor : Vec)
  /-- Elsewhere: not at all, every token reads the cell itself. -/
  | absolute
  deriving DecidableEq, Repr

def coordinateVec (c : UInt32 × UInt32) : Vec := ⟨c.1.toInt32, c.2.toInt32⟩

/-- The offset that a property token reads at. -/
def Mode.offset : Mode → Option (UInt32 × UInt32) → Vec
  | .rule anchor, some c => coordinateVec c - anchor
  | _, _ => Vec.zero

inductive Error where
  | unclosedBracket (source : List Char)
  | malformedToken (inner : List Char)
  | invalidRange (inner : List Char) (flaw : RangeFlaw)
  | empty
  | formula (source : List Char) (fault : Fault)
  deriving DecidableEq, Repr

/-- A text between the quotation marks of messages. -/
def ticked (text : String) : String := "`" ++ text ++ "`"

def faultMessage (source : String) (fault : Fault) : String :=
  "Fasteval error in " ++ ticked source ++ ": " ++ fault.message

def Error.message : Error → String
  | .unclosedBracket source =>
    "Unclosed `[` in expression " ++ ticked (String.ofList source)
  | .malformedToken inner => "Malformed token `[" ++ String.ofList inner ++ "]`"
  | .invalidRange inner flaw =>
    "Random token `[" ++ String.ofList inner ++ "]`: " ++ flaw.message
  | .empty => "Empty expression"
  | .formula source fault => faultMessage (String.ofList source) fault

/-! ## Taking an expression apart -/

/-- A piece of an expression. -/
inductive Piece where
  | plain (text : List Char)
  | bracket (inner : List Char)
  /-- The rest of the text, after a bracket that is never closed. -/
  | unclosed
  deriving DecidableEq, Repr

mutual

/-- The pieces of a text outside brackets, of which `read` is known, reversed. -/
def piecesOutside (read : List Char) : List Char → List Piece
  | [] => [.plain read.reverse]
  | c :: rest =>
    if c = '[' then .plain read.reverse :: piecesInside [] rest
    else piecesOutside (c :: read) rest

/-- The pieces of a text inside a bracket, of which `read` is known, reversed. -/
def piecesInside (read : List Char) : List Char → List Piece
  | [] => [.unclosed]
  | c :: rest =>
    if c = ']' then .bracket read.reverse :: piecesOutside [] rest
    else piecesInside (c :: read) rest

end

def pieces (text : List Char) : List Piece := piecesOutside [] text

/-- What is known of an expression after some of its pieces: the text so far,
the slots and the ranges with the texts of their tokens. -/
structure Parts where
  text : List Char := []
  slots : List Slot := []
  randoms : List (List Char × RandomRange) := []

/-- The variable of slot or range number `n`, with a space around it. -/
def variableText (kind : Char) (n : Nat) : List Char :=
  [' ', kind, '_'] ++ Nat.toDigits 10 n ++ [' ']

def Parts.addToken (parts : Parts) (mode : Mode) (inner : List Char) : Token → Parts
  | .property ref =>
    { parts with
      text := parts.text ++ variableText 'v' parts.slots.length
      slots := parts.slots ++ [⟨ref.name, mode.offset ref.coordinate⟩] }
  | .random range =>
    let key := Text.trim inner
    match parts.randoms.findIdx? (·.1 = key) with
    | some n => { parts with text := parts.text ++ variableText 'r' n }
    | none =>
      { parts with
        text := parts.text ++ variableText 'r' parts.randoms.length
        randoms := parts.randoms ++ [(key, range)] }

def Parts.add (source : List Char) (mode : Mode) (parts : Parts) :
    Piece → Except Error Parts
  | .plain text => .ok { parts with text := parts.text ++ text }
  | .unclosed => .error (.unclosedBracket source)
  | .bracket inner =>
    match Token.read inner with
    | .ok token => .ok (parts.addToken mode inner token)
    | .error .malformed => .error (.malformedToken inner)
    | .error (.range flaw) => .error (.invalidRange inner flaw)

end Expr

structure Expr where
  /-- The text as it is written, without the blanks around it. -/
  source : List Char
  /-- The text with a variable for every token. -/
  formulaText : List Char
  code : Code
  /-- The properties that are read, in the order of the text. -/
  slots : List Slot
  /-- The distinct random tokens and their ranges, in the order of the text. -/
  randoms : List (List Char × RandomRange)

namespace Expr

def compile (mode : Mode) (text : List Char) : Except Error Expr := do
  let source := Text.trim text
  if source.isEmpty then throw .empty
  let parts ← (pieces source).foldlM (Parts.add source mode) {}
  match Formula.read parts.text with
  | .error fault => throw (.formula source fault)
  | .ok formula =>
    return { source, formulaText := parts.text, code := formula.fold, slots := parts.slots,
             randoms := parts.randoms }

/-- The offsets at which a property is read, in the order of the text. -/
def offsets (e : Expr) (name : String) : List Vec :=
  (e.slots.filter (·.name == name)).map (·.offset)

/-- The largest Chebyshev distance from the anchor at which a property is read. -/
def reach (e : Expr) : UInt32 :=
  e.slots.foldl (fun reach slot => max reach slot.offset.chebyshev) 0

/-! ## Evaluation -/

/-- Whether a value counts as true: any that is not zero. -/
def truthy (x : Float) : Bool := x != 0.0

/-- What looking up a property of a cell gives. -/
inductive Lookup where
  | value (x : Float)
  | outOfGrid
  | missing
  /-- The cell may not be read. -/
  | inaccessible

inductive EvalError where
  | missingProperty (name : String) (source : List Char)
  | inaccessible (offset : Vec) (source : List Char)
  | formula (source : List Char) (fault : Fault)
  deriving DecidableEq, Repr

def EvalError.message : EvalError → String
  | .missingProperty name source =>
    "Property " ++ ticked name
      ++ " is not defined on the cell, its type or the global defaults (in "
      ++ ticked (String.ofList source) ++ ")"
  | .inaccessible offset source =>
    "Cell at offset " ++ offset.text ++ " is not accessible while evaluating "
      ++ ticked (String.ofList source)
  | .formula source fault => faultMessage (String.ofList source) fault

/-- The values of some slots of an expression, or `none` when one that comes
before any error lies outside the grid. -/
def slotValues (source : List Char) (lookup : String → Vec → Lookup) :
    List Slot → Except EvalError (Option (List Float))
  | [] => .ok (some [])
  | slot :: rest =>
    match lookup slot.name slot.offset with
    | .value x => do return (← slotValues source lookup rest).map (x :: ·)
    | .outOfGrid => .ok none
    | .missing => .error (.missingProperty slot.name source)
    | .inaccessible => .error (.inaccessible slot.offset source)

/-- The values of the variables: `v_n` is slot number `n` and `r_n` is the draw
from range number `n`. Any other name has none. -/
def environment (values draws : List Float) : Environment := fun name =>
  let entry (list : List Float) (digits : List Char) : Option Float := do
    list[← Number.readNatural? (UInt64.size - 1) digits]?
  match name.toList with
  | 'v' :: '_' :: digits => entry values digits
  | 'r' :: '_' :: digits => entry draws digits
  | _ => none

/-- The value of an expression, or `none` when it reads outside the grid. -/
def eval {ρ : Type} [WordSource ρ] (e : Expr) (lookup : String → Vec → Lookup) :
    StateM ρ (Except EvalError (Option Float)) :=
  match slotValues e.source lookup e.slots with
  | .error error => return .error error
  | .ok none => return .ok none
  | .ok (some values) => do
    let draws ← e.randoms.mapM fun (_, range) => range.sample
    match e.code.eval (environment values draws) with
    | .ok x => return .ok (some x)
    | .error fault => return .error (.formula e.source fault)

end Expr

end FallingSand
