import FallingSand.Expr.Arithmetic
import FallingSand.Text.Quoted

/-!
# Formulas

The syntax of arithmetic without brackets: numbers, names, prefix signs,
operators, calls. An unbracketed sequence of operands and binary operators is
kept as one chain; how tightly the operators bind is decided by `Op.level` when
the chain is taken apart.
-/

namespace FallingSand.Expr

inductive Op where
  | or | and | compare (c : Comparison) | add | sub | mul | div | mod | pow
  deriving DecidableEq, Repr

/-- How tightly an operator binds, loosest first. All comparisons bind alike;
of the others each has a level of its own. -/
inductive Level where
  | or | and | compare | add | sub | mul | div | mod | pow
  deriving DecidableEq, Repr

/-- The levels from the loosest to the tightest. -/
def Level.all : List Level := [.or, .and, .compare, .add, .sub, .mul, .div, .mod, .pow]

def Op.level : Op → Level
  | .or => .or
  | .and => .and
  | .compare _ => .compare
  | .add => .add
  | .sub => .sub
  | .mul => .mul
  | .div => .div
  | .mod => .mod
  | .pow => .pow

inductive Formula where
  | number (value : Float)
  | name (text : String)
  | negate (operand : Formula)
  | complement (operand : Formula)
  /-- Operands and the operators between them, in order. -/
  | chain (first : Formula) (rest : List (Op × Formula))
  | apply (function : Function) (argument : Formula)
  | log (base argument : Formula)
  | round (modulus argument : Formula)
  | min (first : Formula) (rest : List Formula)
  | max (first : Formula) (rest : List Formula)
  | call (text : String) (arguments : List Formula)
  /-- Texts and numbers to be shown; worth the last number. -/
  | print (items : List (String ⊕ Formula))

/-- Why a formula is no formula, or has no value. -/
inductive Fault where
  /-- The text ends inside the named construct. -/
  | unfinished (construct : String)
  | tooLong
  | tooDeep
  /-- More groups or signed operands than can be stored. -/
  | tooMany
  | leftOver (text : List Char)
  | noValue
  | badNumber (text : List Char)
  | expected (what : String)
  | wrongArguments (usage : String)
  | undefined (name : String)
  deriving DecidableEq, Repr

def Fault.message : Fault → String
  | .unfinished construct => "EofWhileParsing(" ++ Text.quoted construct.toList ++ ")"
  | .tooLong => "TooLong"
  | .tooDeep => "TooDeep"
  | .tooMany => "SlabOverflow"
  | .leftOver text => "UnparsedTokensRemaining(" ++ Text.quoted text ++ ")"
  | .noValue => "InvalidValue"
  | .badNumber text => "ParseF64(" ++ Text.quoted text ++ ")"
  | .expected what => "Expected(" ++ Text.quoted what.toList ++ ")"
  | .wrongArguments usage => "WrongArgs(" ++ Text.quoted usage.toList ++ ")"
  | .undefined name => "Undefined(" ++ Text.quoted name.toList ++ ")"

/-! ## Chains -/

/-- Cuts a chain at the operators for which `p` holds: the first segment, and
each later one with the operator before it. -/
def cutChain {α : Type} (p : Op → Bool) (first : α) :
    List (Op × α) → (α × List (Op × α)) × List (Op × α × List (Op × α))
  | [] => ((first, []), [])
  | (op, next) :: rest =>
    let ((head, tail), segments) := cutChain p next rest
    if p op then ((first, []), (op, head, tail) :: segments)
    else ((first, (op, head) :: tail), segments)

/-- Takes a chain apart, loosest operators first: at each level of `levels`
that occurs the chain is cut, its segments are taken apart at the tighter
levels, and `join` puts the parts together again. -/
def reduceChain {α : Type} (join : Level → α → List (Op × α) → α) :
    List Level → α → List (Op × α) → α
  | [], first, _ => first
  | level :: tighter, first, rest =>
    match cutChain (·.level = level) first rest with
    | ((head, tail), []) => reduceChain join tighter head tail
    | ((head, tail), segments) =>
      join level (reduceChain join tighter head tail)
        (segments.map fun (op, head, tail) => (op, reduceChain join tighter head tail))

end FallingSand.Expr
