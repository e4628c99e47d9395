import Calculator.Value.Basic

/-! # What an argument is expected to be -/

namespace Calculator

inductive Expected where
  | int | float | number | string | boolean | array | object | any
  deriving DecidableEq, Repr

namespace Expected

def text : Expected → String
  | int => "integer"
  | float => "float"
  | number => "integer or float"
  | string => "string"
  | boolean => "boolean"
  | array => "array"
  | object => "object"
  | any => "any"

/-- Only numbers are told apart. Everything else converts. -/
def fits : Expected → Value → Bool
  | int, .int _ => true
  | int, _ => false
  | float, .float _ => true
  | float, _ => false
  | number, value => value.isNumeric
  | _, _ => true

/-- Arrays and objects always pass. Their items are looked at one by one later. -/
def admits (expected : Expected) (value : Value) : Bool :=
  value.isCompound || expected.fits value

end Expected

end Calculator
