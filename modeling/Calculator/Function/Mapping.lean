import Calculator.Arithmetic.Operator
import Calculator.Function.Table

/-!
# Functions of numbers

A function of one number reaches every number in an array or object.
-/

namespace Calculator

section

variable (site : Site) (f : Value → Attempt Value)

mutual

def mapNumbers : Value → Attempt Value
  | .int n => f (.int n)
  | .float x => f (.float x)
  | .array items => do return .array (← mapNumbersIn items)
  | .object entries => do return .object (← mapNumbersAmong entries)
  | _ => Attempt.fail site (.valueType .number)

def mapNumbersIn : List Value → Attempt (List Value)
  | [] => .ok []
  | item :: items => do return (← mapNumbers item) :: (← mapNumbersIn items)

def mapNumbersAmong : Entries → Attempt Entries
  | [] => .ok []
  | (key, value) :: entries => do
    return (key, ← mapNumbers value) :: (← mapNumbersAmong entries)

end

end

/-- A number as a float. Nothing else has a type that fits. -/
def asFloat (site : Site) (value : Value) : Attempt Float :=
  match Arithmetic.promoted? value with
  | some x => Attempt.ofFault x
  | none => Attempt.fail site (.valueType .number)

def mapFloats (site : Site) (f : Float → Float) (value : Value) : Attempt Value :=
  mapNumbers site (fun v => do return .float (f (← asFloat site v))) value

namespace Parameter

/-! ## Common parameters -/

def number (name : String) : Parameter := { name, expected := .number }

def string (name : String) : Parameter := { name, expected := .string }

def anything (name : String) : Parameter := { name }

end Parameter

end Calculator
