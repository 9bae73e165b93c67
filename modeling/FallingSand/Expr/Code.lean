import FallingSand.Expr.Formula

/-!
# Folded formulas

Before it is evaluated a formula is turned into code, a tree of binary nodes in
which constants are combined. This changes the arithmetic, and values depend on
it: sums and products are flattened and their constants are taken last,
differences become sums of negated parts, and quotients become products with
inverses. The result of folding is the meaning of a formula.

The nodes are built by one function for each kind of chain (`sum`, `product`,
`anyOf`, …), which see parts that are folded already.
-/

namespace FallingSand.Expr

/-- Code: what is evaluated. -/
inductive Code where
  | const (value : Float)
  | name (text : String)
  | negate (a : Code)
  | complement (a : Code)
  | invert (a : Code)
  | add (a b : Code)
  | mul (a b : Code)
  | mod (a b : Code)
  | pow (a b : Code)
  | compare (c : Comparison) (a b : Code)
  | or (a b : Code)
  | and (a b : Code)
  | apply (function : Function) (a : Code)
  | log (base a : Code)
  | round (modulus a : Code)
  | min (a b : Code)
  | max (a b : Code)
  | call (text : String) (arguments : List Code)
  | print (items : List (String ⊕ Formula))

namespace Code

/-- The constant that a node is, if it is one. -/
def const? : Code → Option Float
  | .const value => some value
  | _ => none

/-- The constants among some parts, in order. -/
def constants (parts : List Code) : List Float := parts.filterMap const?

/-- The parts that are not constants, in order. -/
def unknowns (parts : List Code) : List Code := parts.filter (·.const?.isNone)

/-! ## Signs -/

/-- The negation of a part; two cancel. -/
def mkNegate : Code → Code
  | .const value => .const (-value)
  | .negate a => a
  | a => .negate a

/-- The complement of a part; two cancel. -/
def mkComplement : Code → Code
  | .const value => .const (ofBool (equal value 0.0))
  | .complement a => a
  | a => .complement a

/-- The inverse of a part; two cancel. -/
def mkInvert : Code → Code
  | .const value => .const (1.0 / value)
  | .invert a => a
  | a => .invert a

/-! ## Sums and products -/

/-- The parts of nested additions, the right one of each node first. -/
def addends : Code → List Code
  | .add a b => addends b ++ addends a
  | a => [a]

/-- The parts of nested multiplications, the right one of each node first. -/
def factors : Code → List Code
  | .mul a b => factors b ++ factors a
  | a => [a]

/-- Parts joined by `node` from left to right, with a combined constant last.
The constant is left out when it counts as `unit`; with no part at all it
stands alone. -/
def joinWith (node : Code → Code → Code) (unit constant : Float) : List Code → Code
  | [] => .const (if unequal constant unit then constant else unit)
  | first :: rest =>
    let chained := rest.foldl node first
    if unequal constant unit then node chained (.const constant) else chained

def sum (parts : List Code) : Code :=
  joinWith .add 0.0 ((constants parts).foldl (· + ·) 0.0) (unknowns parts)

def product (parts : List Code) : Code :=
  joinWith .mul 1.0 ((constants parts).foldl (· * ·) 1.0) (unknowns parts)

/-! ## Other chains -/

/-- A node of two parts, worked out at once when both are constants. -/
def binary (node : Code → Code → Code) (value : Float → Float → Float) (a b : Code) : Code :=
  match a, b with
  | .const x, .const y => .const (value x y)
  | _, _ => node a b

def mkCompare (c : Comparison) : Code → Code → Code := binary (.compare c) c.apply

def mkMod : Code → Code → Code := binary .mod Number.remainder

def mkPow : Code → Code → Code := binary .pow Float.pow

/-- A chain of powers, from right to left. -/
def powers : Code → List Code → Code
  | a, [] => a
  | a, b :: rest => mkPow a (powers b rest)

/-- The first part that counts as true, else the last. Leading constants are
decided at once, and everything after the first other part is kept. -/
def anyOf : List Code → Code
  | [] => .const 0.0
  | .const value :: rest => if unequal value 0.0 then .const value else anyOf rest
  | first :: rest => rest.foldl .or first

/-- The first part that counts as false, else the last, given what came before.
A constant that counts as false is the answer wherever it stands; any other
constant gives way to the part after it. -/
def allOfAfter : Code → List Code → Code
  | before, [] => before
  | before, part :: rest =>
    match part with
    | .const value =>
      if equal value 0.0 then .const value
      else match before with
        | .const _ => allOfAfter part rest
        | _ => allOfAfter (.and before part) rest
    | _ => match before with
      | .const _ => allOfAfter part rest
      | _ => allOfAfter (.and before part) rest

/-- The first part that counts as false, else the last. -/
def allOf (first : Code) (rest : List Code) : Code :=
  match first with
  | .const value => if equal value 0.0 then first else allOfAfter first rest
  | _ => allOfAfter first rest

/-- The extreme of some parts: constants are combined in order by `better`, the
other parts are chained, and the combined constant comes last. -/
def extreme (node : Code → Code → Code) (better : Float → Float → Bool)
    (parts : List Code) : Code :=
  let best : Option Float := match constants parts with
    | [] => none
    | first :: rest => some (bestOf better first rest)
  match unknowns parts, best with
  | [], none => .const 0.0
  | [], some value => .const value
  | first :: rest, none => rest.foldl node first
  | first :: rest, some value => node (rest.foldl node first) (.const value)

/-- A chain of folded parts at one level of binding. -/
def joinChain (level : Level) (first : Code) (rest : List (Op × Code)) : Code :=
  match level with
  | .or => anyOf (first :: rest.map (·.2))
  | .and => allOf first (rest.map (·.2))
  | .compare =>
    rest.foldl (fun a (op, b) => match op with
      | .compare c => mkCompare c a b
      | _ => a) first
  | .add => sum ((first :: rest.map (·.2)).flatMap addends)
  | .sub => sum (first :: rest.map fun (_, b) => mkNegate b)
  | .mul => product ((first :: rest.map (·.2)).flatMap factors)
  | .div => product (first :: rest.map fun (_, b) => mkInvert b)
  | .mod => rest.foldl (fun a (_, b) => mkMod a b) first
  | .pow => powers first (rest.map (·.2))

end Code

/-! ## Folding -/

mutual

def Formula.fold : Formula → Code
  | .number value => .const value
  | .name text => .name text
  | .negate operand => Code.mkNegate operand.fold
  | .complement operand => Code.mkComplement operand.fold
  | .chain first rest => reduceChain Code.joinChain Level.all first.fold (foldChain rest)
  | .apply function argument =>
    match argument.fold with
    | .const value => .const (function.apply value)
    | a => .apply function a
  | .log base argument => Code.binary .log logarithm base.fold argument.fold
  | .round modulus argument => Code.binary .round roundTo modulus.fold argument.fold
  | .min first rest => Code.extreme .min (· < ·) (first.fold :: foldAll rest)
  | .max first rest => Code.extreme .max (· > ·) (first.fold :: foldAll rest)
  | .call text arguments => .call text (foldAll arguments)
  | .print items => .print items

def foldChain : List (Op × Formula) → List (Op × Code)
  | [] => []
  | (op, operand) :: rest => (op, operand.fold) :: foldChain rest

def foldAll : List Formula → List Code
  | [] => []
  | argument :: rest => argument.fold :: foldAll rest

end

end FallingSand.Expr
