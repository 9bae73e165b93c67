import FallingSand.Expr.Code

/-!
# Evaluating formulas

Names get their values from an environment; a name without one is a fault, and
so is every unknown function. Operands are evaluated from left to right, and
the right side of `and` and `or` only when it decides.

Code is what a formula means. The arguments of `print` are the exception: they
are evaluated as they were written, without folding.
-/

namespace FallingSand.Expr

abbrev Environment := String → Option Float

def Environment.value (env : Environment) (text : String) : Except Fault Float :=
  match env text with
  | some value => .ok value
  | none => .error (.undefined text)

/-- Refuses a text that asks for its arguments to be laid out. -/
def checkLayout : List (String ⊕ Formula) → Except Fault Unit
  | .inl text :: _ =>
    if text.toList.contains '%' then
      .error (.wrongArguments "printf formatting is not yet implemented")
    else .ok ()
  | _ => .ok ()

/-- The value of a chain of values at one level of binding. Sums, products and
powers are worked out from right to left, everything else from left to right. -/
def joinValues (level : Level) (first : Float) (rest : List (Op × Float)) : Float :=
  match level with
  | .or => rest.foldl (fun a (_, b) => if unequal a 0.0 then a else b) first
  | .and => rest.foldl (fun a (_, b) => if equal a 0.0 then a else b) first
  | .compare =>
    rest.foldl (fun a (op, b) => match op with
      | .compare c => c.apply a b
      | _ => a) first
  | .add => fromRight (· + ·) first (rest.map (·.2))
  | .sub => rest.foldl (fun a (_, b) => a - b) first
  | .mul => fromRight (· * ·) first (rest.map (·.2))
  | .div => rest.foldl (fun a (_, b) => a / b) first
  | .mod => rest.foldl (fun a (_, b) => Number.remainder a b) first
  | .pow => fromRight Float.pow first (rest.map (·.2))
where
  /-- Values joined from right to left. -/
  fromRight (join : Float → Float → Float) : Float → List Float → Float
    | a, [] => a
    | a, b :: rest => join a (fromRight join b rest)

mutual

/-- The value of a formula as it is written. -/
def Formula.value (env : Environment) : Formula → Except Fault Float
  | .number value => .ok value
  | .name text => env.value text
  | .negate operand => do return -(← operand.value env)
  | .complement operand => do return ofBool (equal (← operand.value env) 0.0)
  | .chain first rest => do
    let first ← first.value env
    return reduceChain joinValues Level.all first (← chainValues env rest)
  | .apply function argument => do return function.apply (← argument.value env)
  | .log base argument => do
    let base ← base.value env
    return logarithm base (← argument.value env)
  | .round modulus argument => do
    let modulus ← modulus.value env
    return roundTo modulus (← argument.value env)
  | .min first rest => do
    let first ← first.value env
    return bestOf (· < ·) first (← argumentValues env rest)
  | .max first rest => do
    let first ← first.value env
    return bestOf (· > ·) first (← argumentValues env rest)
  | .call text arguments => do
    let _ ← argumentValues env arguments
    env.value text
  | .print items => do
    checkLayout items
    lastValue env 0.0 items

def chainValues (env : Environment) : List (Op × Formula) → Except Fault (List (Op × Float))
  | [] => .ok []
  | (op, operand) :: rest => do
    let value ← operand.value env
    return (op, value) :: (← chainValues env rest)

def argumentValues (env : Environment) : List Formula → Except Fault (List Float)
  | [] => .ok []
  | argument :: rest => do
    let value ← argument.value env
    return value :: (← argumentValues env rest)

/-- The value of the last number among some items, or `last` without any. -/
def lastValue (env : Environment) (last : Float) :
    List (String ⊕ Formula) → Except Fault Float
  | [] => .ok last
  | .inl _ :: rest => lastValue env last rest
  | .inr formula :: rest => do lastValue env (← formula.value env) rest

end

mutual

def Code.eval (env : Environment) : Code → Except Fault Float
  | .const value => .ok value
  | .name text => env.value text
  | .negate a => do return -(← a.eval env)
  | .complement a => do return ofBool (equal (← a.eval env) 0.0)
  | .invert a => do return 1.0 / (← a.eval env)
  | .add a b => do let x ← a.eval env; return x + (← b.eval env)
  | .mul a b => do let x ← a.eval env; return x * (← b.eval env)
  | .mod a b => do let x ← a.eval env; return Number.remainder x (← b.eval env)
  | .pow a b => do let x ← a.eval env; return Float.pow x (← b.eval env)
  | .compare c a b => do let x ← a.eval env; return c.apply x (← b.eval env)
  | .or a b => do
    let x ← a.eval env
    if unequal x 0.0 then return x else b.eval env
  | .and a b => do
    let x ← a.eval env
    if equal x 0.0 then return x else b.eval env
  | .apply function a => do return function.apply (← a.eval env)
  | .log base a => do let x ← base.eval env; return logarithm x (← a.eval env)
  | .round modulus a => do let x ← modulus.eval env; return roundTo x (← a.eval env)
  | .min a b => do let x ← a.eval env; return smaller x (← b.eval env)
  | .max a b => do let x ← a.eval env; return larger x (← b.eval env)
  | .call text arguments => do
    evalAll env arguments
    env.value text
  | .print items => do
    checkLayout items
    lastValue env 0.0 items

/-- Evaluates arguments whose values are not needed. -/
def evalAll (env : Environment) : List Code → Except Fault Unit
  | [] => .ok ()
  | argument :: rest => do
    let _ ← argument.eval env
    evalAll env rest

end

end FallingSand.Expr
