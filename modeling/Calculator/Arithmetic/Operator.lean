import Calculator.Arithmetic.Broadcast
import Calculator.Arithmetic.Real
import Calculator.Arithmetic.Whole
import Calculator.Value.Conversion

/-!
# Operators

Arithmetic on integers stays with integers. One float anywhere in an operand turns everything into
floats. Bit operators know only integers.
-/

namespace Calculator

open Number Arithmetic

inductive Operator where
  | add | subtract | multiply | divide | remainder | power
  | shiftLeft | shiftRight | bitAnd | bitOr | bitXor
  deriving DecidableEq, Repr

namespace Operator

/-- Nothing when the result is out of range or does not exist. -/
def onInts : Operator → Int → Int → Option Int
  | add => addInts
  | subtract => subtractInts
  | multiply => multiplyInts
  | divide => divideInts
  | remainder => remainderInts
  | power => powerInts
  | shiftLeft => fun a b => some (shiftLeftInts a b)
  | shiftRight => fun a b => some (shiftRightInts a b)
  | bitAnd => fun a b => some (bitAndInts a b)
  | bitOr => fun a b => some (bitOrInts a b)
  | bitXor => fun a b => some (bitXorInts a b)

/-- Nothing for operators on bits. -/
def onFloats? : Operator → Option (Float → Float → Float)
  | add => some (· + ·)
  | subtract => some (· - ·)
  | multiply => some (· * ·)
  | divide => some (· / ·)
  | remainder => some remainderFloats
  | power => some powerFloats
  | _ => none

end Operator

namespace Arithmetic

def wholeScalars (site : Site) (expected : Expected) (f : Int → Int → Option Int) :
    ScalarOperation
  | .int a, .int b =>
    match f a b with
    | some n => .ok (.int n)
    | none => Attempt.fail site .overflow
  | _, _ => Attempt.fail site (.valueType expected)

/-- An infinite result is an error. -/
def finished (site : Site) (x : Float) : Attempt Value :=
  if x == infinity then Attempt.fail site .overflow
  else if x == -infinity then Attempt.fail site .underflow
  else .ok (.float x)

/-- What a number is as a float. -/
def promoted? : Value → Option (Except Fault Float)
  | .int n => some (toFloat n)
  | .float x => some (.ok x)
  | _ => none

def realScalars (site : Site) (f : Float → Float → Float) : ScalarOperation := fun left right =>
  match promoted? left, promoted? right with
  | some a, some b => do finished site (f (← Attempt.ofFault a) (← Attempt.ofFault b))
  | _, _ => Attempt.fail site (.valueType .number)

end Arithmetic

namespace Operator

def calculate (site : Site) (operator : Operator) (left right : Value) : Attempt Value :=
  match operator.onFloats? with
  | none => broadcast site (wholeScalars site .int operator.onInts) left right
  | some f =>
    if holdsFloat left || holdsFloat right then broadcast site (realScalars site f) left right
    else broadcast site (wholeScalars site .number operator.onInts) left right

/-- A string takes in what is added to it. -/
def apply (site : Site) (operator : Operator) (left right : Value) : Attempt Value :=
  if operator = .add ∧ (left.isString ∨ right.isString) then .ok (.string (left.text ++ right.text))
  else operator.calculate site left right

end Operator

/-! ## Operators with one operand -/

namespace Arithmetic

mutual

def negate (site : Site) : Value → Attempt Value
  | .int n =>
    match negateInt n with
    | some m => .ok (.int m)
    | none => Attempt.fail site .overflow
  | .float x => .ok (.float (-x))
  | .bool b => .ok (.bool !b)
  | .array items => do return .array (← negateItems site items)
  | .name s => Attempt.fail site (.unknownVariable s)
  | _ => Attempt.fail site (.valueType .number)

def negateItems (site : Site) : List Value → Attempt (List Value)
  | [] => .ok []
  | item :: items => do return (← negate site item) :: (← negateItems site items)

end

mutual

def complement (site : Site) : Value → Attempt Value
  | .int n => .ok (.int (complementInt n))
  | .bool b => .ok (.bool !b)
  | .array items => do return .array (← complementItems site items)
  | .name s => Attempt.fail site (.unknownVariable s)
  | _ => Attempt.fail site (.valueType .int)

def complementItems (site : Site) : List Value → Attempt (List Value)
  | [] => .ok []
  | item :: items => do return (← complement site item) :: (← complementItems site items)

end

def factorialInt (site : Site) (n : Int) : Attempt Value :=
  if n < 0 then Attempt.fail site .underflow
  else
    match factorialNat n.toNat with
    | some m => .ok (.int m)
    | none => Attempt.fail site .overflow

mutual

/-- Of a float, only the digits before the point count. -/
def factorial (site : Site) : Value → Attempt Value
  | .int n => factorialInt site n
  | .float x =>
    match truncate x with
    | .ok n => factorialInt site n
    | .error _ => Attempt.fail site .overflow
  | .array items => do return .array (← factorialItems site items)
  | .name s => Attempt.fail site (.unknownVariable s)
  | _ => Attempt.fail site (.valueType .number)

def factorialItems (site : Site) : List Value → Attempt (List Value)
  | [] => .ok []
  | item :: items => do return (← factorial site item) :: (← factorialItems site items)

end

end Arithmetic

end Calculator
