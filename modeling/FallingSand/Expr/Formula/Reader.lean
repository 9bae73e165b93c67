import FallingSand.Expr.Formula
import FallingSand.Number.Decimal

/-!
# Reading formulas

A recursive-descent reader with three limits: a formula may be 4096 bytes long
and 32 levels deep, and it may hold 256 groups (itself, every parenthesis and
every argument) and as many signed operands. The readers of nested parts are
recursive in the number of levels that are left, so the depth limit is what
makes them terminate.

A number may carry a sign of its own, and a letter that scales it by a power of
a thousand. So `-2 ^ 2` is the square of `-2`.
-/

namespace FallingSand.Expr

open FallingSand.Text (dropLead?)
open FallingSand.Number (readFloat?)

/-- A formula being read: the text that is left, and how many groups and signed
operands are stored so far. -/
structure Reading where
  rest : List Char
  groups : Nat := 0
  operands : Nat := 0

/-- A reader of a part of a formula. -/
abbrev Reader := StateT Reading (Except Fault)

namespace Reader

/-- How many groups, and how many signed operands, a formula may hold. -/
def capacity : Nat := 256

/-- The length of the longest formula in bytes. -/
def longest : Nat := 4096

/-- How many levels of nesting there are, the outermost included. -/
def levels : Nat := 33

/-- Whether a character may stand between the parts of a formula. -/
def isSpace (c : Char) : Bool :=
  c == ' ' || c == '\n' || c == '\t' || c == '\r'

/-- Skips spaces and gives the text that is left. -/
def peek : Reader (List Char) := do
  modify fun s => { s with rest := s.rest.dropWhile isSpace }
  return (← get).rest

def goTo (rest : List Char) : Reader Unit :=
  modify fun s => { s with rest }

def storeGroup : Reader Unit := do
  if capacity ≤ (← get).groups then throw .tooMany
  modify fun s => { s with groups := s.groups + 1 }

def storeOperand : Reader Unit := do
  if capacity ≤ (← get).operands then throw .tooMany
  modify fun s => { s with operands := s.operands + 1 }

/-! ## Numbers -/

/-- The longest front part that can be the text of a number, reversed, and
whether it holds a digit, a point or a word, and whether a scaling letter may
follow. A sign may stand first and after the letter of an exponent; a word for
a special value ends the text. -/
def scanNumber (signOk wordOk scaleOk seen : Bool) (read : List Char) :
    List Char → List Char × Bool × Bool × List Char
  | [] => (read, seen, scaleOk, [])
  | c :: rest =>
    if c.isDigit || c == '.' then scanNumber false false scaleOk true (c :: read) rest
    else if signOk && (c == '-' || c == '+') then
      scanNumber false wordOk scaleOk seen (c :: read) rest
    else if seen && (c == 'e' || c == 'E') then
      scanNumber true wordOk false seen (c :: read) rest
    else if wordOk then
      match dropLead? ['N', 'a', 'N'] (c :: rest), dropLead? ['i', 'n', 'f'] (c :: rest) with
      | some after, _ => ('N' :: 'a' :: 'N' :: read, true, false, after)
      | none, some after => ('f' :: 'n' :: 'i' :: read, true, false, after)
      | none, none => (read, seen, scaleOk, c :: rest)
    else (read, seen, scaleOk, c :: rest)

/-- The exponent of ten that a scaling letter stands for. -/
def scale? : Char → Option String
  | 'k' | 'K' => some "3"
  | 'M' => some "6"
  | 'G' => some "9"
  | 'T' => some "12"
  | 'm' => some "-3"
  | 'u' | 'µ' => some "-6"
  | 'n' => some "-9"
  | 'p' => some "-12"
  | _ => none

/-- A number, if one stands next. -/
def number? : Reader (Option Float) := do
  let (read, seen, scaleOk, rest) := scanNumber true true true false [] (← peek)
  if !seen then return none
  let (text, rest) := match rest with
    | c :: after =>
      match scale? c with
      | some exponent => if scaleOk then (read.reverse ++ 'e' :: exponent.toList, after)
        else (read.reverse, rest)
      | none => (read.reverse, rest)
    | [] => (read.reverse, rest)
  match readFloat? text with
  | some value => goTo rest; return some value
  | none => throw (.badNumber text)

/-! ## Operators and names -/

/-- The operators and their spellings; longer spellings stand first. -/
def operators : List (List Char × Op) :=
  [(['<', '='], .compare .lessEqual), (['<'], .compare .less),
   (['>', '='], .compare .greaterEqual), (['>'], .compare .greater),
   (['=', '='], .compare .equal), (['!', '='], .compare .unequal),
   (['o', 'r'], .or), (['|', '|'], .or), (['a', 'n', 'd'], .and), (['&', '&'], .and),
   (['+'], .add), (['-'], .sub), (['*'], .mul), (['/'], .div), (['%'], .mod), (['^'], .pow)]

/-- A binary operator, if one stands next. -/
def operator? : Reader (Option Op) := do
  let text ← peek
  match operators.findSome? fun (mark, op) => (dropLead? mark text).map fun rest => (op, rest) with
  | some (op, rest) => goTo rest; return some op
  | none => return none

def startsName (c : Char) : Bool := c.isAlpha || c == '_'

def continuesName (c : Char) : Bool := c.isAlphanum || c == '_'

/-- A name, if one stands next. -/
def name? : Reader (Option String) := do
  match ← peek with
  | c :: rest =>
    if startsName c then
      goTo (rest.dropWhile continuesName)
      return some (String.ofList (c :: rest.takeWhile continuesName))
    else return none
  | [] => return none

/-! ## Groups and arguments -/

/-- The operators and operands that follow a first operand. Every operator has
a character of its own, so `fuel` need not exceed the length of the text. -/
def chainRest (operand : Reader Formula) : Nat → Reader (List (Op × Formula))
  | 0 => return []
  | fuel + 1 => do
    match ← operator? with
    | none => return []
    | some op =>
      let next ← operand
      return (op, next) :: (← chainRest operand fuel)

/-- Operands with operators between them. -/
def chain (operand : Reader Formula) : Reader Formula := do
  let first ← operand
  let rest ← chainRest operand (← get).rest.length
  return .chain first rest

/-- A chain that is counted once it is read. -/
def group (operand : Reader Formula) : Reader Formula := do
  let formula ← chain operand
  storeGroup
  return formula

/-- The arguments of `name` up to the closing parenthesis. All but the first
stand after a separator; `fuel` is as for `chainRest`. -/
def argumentsOf {α : Type} (name : String) (argument : Reader α) :
    Bool → Nat → Reader (List α)
  | _, 0 => return []
  | isFirst, fuel + 1 => do
    match ← peek with
    | [] => throw (.unfinished name)
    | ')' :: rest => goTo rest; return []
    | c :: rest =>
      if !isFirst then
        if c == ',' || c == ';' then goTo rest else throw (.expected "',' or ';'")
      let first ← argument
      return first :: (← argumentsOf name argument false fuel)

def arguments {α : Type} (name : String) (argument : Reader α) : Reader (List α) := do
  argumentsOf name argument true ((← get).rest.length + 1)

/-- A text between quotes or a group. -/
def printItem (operand : Reader Formula) : Reader (String ⊕ Formula) := do
  match ← peek with
  | [] => throw (.unfinished "opening quote of string")
  | '"' :: rest =>
    match FallingSand.Text.splitAtFirst? ['"'] rest with
    | none => throw (.unfinished "string")
    | some (text, after) => goTo after; return .inl (String.ofList text)
  | _ => return .inr (← group operand)

/-- The call of a function by its name and its arguments. -/
def callOf (name : String) (arguments : List Formula) : Except Fault Formula :=
  match Function.ofName? name with
  | some function =>
    match arguments with
    | [a] => .ok (.apply function a)
    | _ => .error (.wrongArguments (name ++ ": expected one arg"))
  | none =>
    match name, arguments with
    | "log", [a] => .ok (.log (.number 10.0) a)
    | "log", [b, a] => .ok (.log b a)
    | "log", _ => .error (.wrongArguments "expected log(x) or log(base,x)")
    | "round", [a] => .ok (.round (.number 1.0) a)
    | "round", [m, a] => .ok (.round m a)
    | "round", _ =>
      .error (.wrongArguments "round: expected round(x) or round(modulus,x)")
    | "min", first :: rest => .ok (.min first rest)
    | "min", [] => .error (.wrongArguments "min: expected one or more args")
    | "max", first :: rest => .ok (.max first rest)
    | "max", [] => .error (.wrongArguments "max: expected one or more args")
    | "e", [] => .ok (.number 2.718281828459045)
    | "e", _ => .error (.wrongArguments "e: expected no args")
    | "pi", [] => .ok (.number 3.141592653589793)
    | "pi", _ => .error (.wrongArguments "pi: expected no args")
    | _, _ => .ok (.call name arguments)

/-- A single operand, at `depth` levels from the deepest. -/
def operand : Nat → Reader Formula
  | 0 => throw .tooDeep
  | depth + 1 => do
    if let some value ← number? then return .number value
    match ← peek with
    | '+' :: rest => goTo rest; let value ← operand depth; storeOperand; return value
    | '-' :: rest => goTo rest; let value ← operand depth; storeOperand; return .negate value
    | '!' :: rest =>
      goTo rest; let value ← operand depth; storeOperand; return .complement value
    | '(' :: rest =>
      goTo rest
      let inner ← group (operand depth)
      match ← peek with
      | [] => throw (.unfinished "parentheses")
      | ')' :: rest => goTo rest; return inner
      | _ => throw (.expected ")")
    | text =>
      match ← name? with
      | none => if text.isEmpty then throw (.unfinished "value") else throw .noValue
      | some name =>
        match ← peek with
        | '(' :: rest =>
          goTo rest
          if name == "print" then
            let item := match depth with
              | 0 => throw .tooDeep
              | deeper + 1 => operand deeper
            return .print (← arguments name (printItem item))
          else callOf name (← arguments name (group (operand depth)))
        | _ => return .name name

end Reader

/-- Reads a whole text as a formula. -/
def Formula.read (text : List Char) : Except Fault Formula :=
  if Reader.longest < (String.ofList text).utf8ByteSize then .error .tooLong
  else
    let whole : Reader Formula := do
      let formula ← Reader.chain (Reader.operand Reader.levels)
      match ← Reader.peek with
      | [] => Reader.storeGroup; return formula
      | rest => throw (.leftOver rest)
    (whole.run ⟨text, 0, 0⟩).map (·.1)

end FallingSand.Expr
