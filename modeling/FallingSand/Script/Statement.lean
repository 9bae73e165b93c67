import FallingSand.Script.Error
import FallingSand.World.Color
import FallingSand.World.Symbol

/-!
# Statements

The forms of single lines. A form has a description for messages and a scanner
that takes the parts out of a line; what they mean depends on where the line
stands and is decided elsewhere. A line has a form when the scanner reads all
of it but blanks.
-/

namespace FallingSand.Script

open FallingSand.Text
open FallingSand.Text.Scanner
open FallingSand.Number (Numeral)
open FallingSand.Expr (PropertyRef)

/-- A form of statements. -/
structure Form (α : Type) where
  description : String
  scanner : Scanner α

def Form.read {α : Type} (form : Form α) (line : List Char) : Except Problem α :=
  match form.scanner line with
  | none => .error (.syntaxError form.description line)
  | some (parts, rest) =>
    let rest := trim rest
    if rest.isEmpty then .ok parts else .error (.trailing form.description rest)

/-! ## Lines as a whole -/

/-- Whether a character may stand in the word that a line starts with. -/
def isKeywordChar (c : Char) : Bool := c.isAlpha || c == '-'

/-- The word that a line starts with, which tells the forms apart. -/
def keyword (line : List Char) : String :=
  if (dropLead? ['-', '>'] line).isSome then "->"
  else String.ofList (line.takeWhile isKeywordChar)

/-- The pieces of a text between the commas that stand outside brackets, when a counter
shows that `depth` brackets are open and `piece` is known of the first one, reversed. -/
def cutTopLevel {κ : Type} [OfNat κ 0] [OfNat κ 1] [Add κ] [Sub κ] [DecidableEq κ] (depth : κ)
    (piece : List Char) : List Char → List (List Char)
  | [] => [piece.reverse]
  | c :: rest =>
    if c = '(' || c = '[' then cutTopLevel (depth + 1) (c :: piece) rest
    else if c = ')' || c = ']' then cutTopLevel (depth - 1) (c :: piece) rest
    else if c = ',' && depth = 0 then piece.reverse :: cutTopLevel depth [] rest
    else cutTopLevel depth (c :: piece) rest

/-- The parts of a text between the commas that stand outside brackets. -/
def splitTopLevel (text : List Char) : List (List Char) :=
  (cutTopLevel (0 : Int) [] text).map trim

/-! ## Common parts -/

/-- The brace that opens a block. -/
def openBrace : Scanner Unit := do
  layout; char '\x7b'

/-- A word and the layout that separates it from what follows. -/
def leading (text : String) : Scanner Unit := do
  literal text; layout1

/-- A number of at most eight bits. -/
def byte : Scanner UInt8 := do
  return UInt8.ofNat (← naturalUpTo 255)

/-- A color channel in two hexadecimal digits. -/
def hexChannel : Scanner UInt8
  | a :: b :: rest => do
    let high ← hexDigit? a
    let low ← hexDigit? b
    return (UInt8.ofNat (16 * high + low), rest)
  | _ => none

/-- A color as `#RRGGBB`. -/
def hexColor : Scanner Color := do
  char '#'
  let r ← hexChannel
  let g ← hexChannel
  let b ← hexChannel
  return ⟨r, g, b⟩

/-- Whether a character may stand in a member of a set. -/
def isMemberChar (c : Char) : Bool := !isBlank c && c != ',' && c != '\x7d'

/-- Members of a set between braces. -/
def members : Scanner (List SetMember) := do
  char '\x7b'; layout
  let tokens ← separated (takeWhile1 isMemberChar) (mark ',')
  layout; char '\x7d'
  return tokens.map SetMember.ofToken

/-- A run of characters that are not blank. -/
def value : Scanner (List Char) := takeWhile1 (!isBlank ·)

/-- A property between brackets. -/
def bracketed : Scanner PropertyRef := do
  char '['
  let ref ← PropertyRef.scan
  char ']'
  return ref

/-! ## Statements of a file -/

namespace Form

/-- A set for every atom that is declared later. -/
def global : Form (String × List SetMember) where
  description := "global <name> \x7bmembers\x7d"
  scanner := do
    leading "global"
    let name ← identifier
    layout
    return (name, ← members)

/-- A color or two corners of a color range to be prepared. -/
def preload : Form (Color × Option Color) where
  description := "preload #RRGGBB [#RRGGBB]"
  scanner := do
    leading "preload"
    let first ← hexColor
    let second ← optional (do layout1; hexColor)
    return (first, second)

def defaultValue : Form (String × Numeral) where
  description := "default <name> <value>"
  scanner := do
    leading "default"
    let name ← identifier
    layout1
    return (name, ← Numeral.scan)

def atomStart : Form (String × Option String) where
  description := "atom <Name> [alias <A>] \x7b"
  scanner := do
    leading "atom"
    let name ← identifier
    let aliasName ← optional (do layout1; leading "alias"; identifier)
    openBrace
    return (name, aliasName)

def rulesetStart : Form String where
  description := "ruleset <Name> \x7b"
  scanner := do
    leading "ruleset"
    let name ← identifier
    openBrace
    return name

def sectionStart : Form String where
  description := "section <name> \x7b"
  scanner := do
    leading "section"
    let name ← identifier
    openBrace
    return name

/-! ## Statements of an atom -/

/-- A property of cells, or with `cdef` of the type as a whole: whether it is the
latter, its name and its value. -/
def property : Form (Bool × String × List Char) where
  description := "def|cdef <name> <value>"
  scanner := do
    let constant ← (do literal "cdef"; return true) <|> (do literal "def"; return false)
    layout1
    let name ← identifier
    layout1
    return (constant, name, ← value)

def color : Form Color where
  description := "#RRGGBB or dynamic"
  scanner := hexColor

def definition : Form (String × List SetMember) where
  description := "def <name> \x7bmembers\x7d"
  scanner := do
    leading "def"
    let name ← identifier
    layout
    return (name, ← members)

/-- What a color rule has to look like. -/
def colorRuleDescription : String := "<condition> => r, g, b"

/-- The value that a property is set to. -/
def set : Form (PropertyRef × List Char) where
  description := "set [<name>] = <expression>"
  scanner := do
    leading "set"
    let ref ← bracketed
    mark '='
    return (ref, ← rest)

/-! ## Statements of rules -/

/-- What stands at the start of a match block. -/
structure MatchHeader where
  x : UInt8
  y : UInt8
  width : UInt8
  height : UInt8
  symmetry : Option (List Char)

def matchBlock : Form MatchHeader where
  description := "match (ox, oy, w, h) [sym(xy)] \x7b"
  scanner := do
    literal "match"; mark '('
    let x ← byte; mark ','
    let y ← byte; mark ','
    let width ← byte; mark ','
    let height ← byte
    layout; char ')'
    let symmetry ← optional do
      layout; literal "sym"; mark '('
      let letters ← takeWhile Char.isAlpha
      layout; char ')'
      return letters
    openBrace
    return ⟨x, y, width, height, symmetry⟩

/-- The start of an effect block, with a probability if it has one. -/
def effectBlock : Form (Option Numeral) where
  description := "-> [P-<probability>] \x7b"
  scanner := do
    literal "->"; layout
    let probability ← optional (do char 'P'; mark '-'; Numeral.scan)
    openBrace
    return probability

def condition : Form (List Char) where
  description := "eval <expression>"
  scanner := do
    leading "eval"
    rest

/-- A captured cell: its symbol and its coordinate. -/
def bind : Form (String × UInt8 × UInt8) where
  description := "def <symbol> = (x, y)"
  scanner := do
    leading "def"
    let symbol ← identifier
    mark '='
    char '('; layout
    let x ← byte; mark ','
    let y ← byte
    layout; char ')'
    return (symbol, x, y)

/-- A property and an expression, with words before and between them. -/
def propertyThen (verb preposition : String) : Scanner (PropertyRef × List Char) := do
  leading verb
  let ref ← bracketed
  layout1; leading preposition
  return (ref, ← rest)

def increase : Form (PropertyRef × List Char) where
  description := "inc [<name>] by <expression>"
  scanner := propertyThen "inc" "by"

def clamp : Form (PropertyRef × List Char) where
  description := "clamp [<name>] in <min>, <max>"
  scanner := propertyThen "clamp" "in"

/-- Where the next tick shall take place. -/
def shift : Form Vec where
  description := "shift(dx, dy)"
  scanner := do
    literal "shift"; mark '('
    let x ← int32; mark ','
    let y ← int32
    layout; char ')'
    return ⟨x, y⟩

/-- Which block of the previous rule is used again. -/
inductive Repeated where
  | matching | effect
  deriving DecidableEq, Repr

def repetition : Form Repeated where
  description := "repeat match|effect"
  scanner := do
    leading "repeat"
    (do literal "match"; return .matching) <|> (do literal "effect"; return .effect)

/-- The rules of another atom or of a rule set, with flags and their values. -/
def inherit : Form (String × List (String × List Char)) where
  description := "inherit <name> [-P=<probability>]"
  scanner := do
    leading "inherit"
    let name ← identifier
    let flags ← many do
      layout1; char '-'
      let flag ← identifier
      char '='
      return (flag, ← value)
    return (name, flags)

/-- A movement and its parameters. -/
def extension : Form (String × List (String × List Char)) where
  description := "ext <name> (key=value, ...)"
  scanner := do
    leading "ext"
    let name ← identifier
    layout; char '('; layout
    let parameters ← separated
      (do let key ← identifier
          mark '='
          return (key, trim (← takeWhile1 fun c => c != ',' && c != ')')))
      (mark ',')
    layout; char ')'
    return (name, parameters)

end Form

end FallingSand.Script
