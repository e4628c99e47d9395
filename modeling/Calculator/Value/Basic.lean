/-! # Values -/

namespace Calculator

/-- What an expression stands for. -/
inductive Value where
  | none
  | bool (b : Bool)
  | int (n : Int)
  | float (x : Float)
  | string (s : String)
  | array (items : List Value)
  /-- Keys and what they lead to, in the order in which the keys came. -/
  | object (entries : List (Value × Value))
  /-- A name that stands for nothing yet. It does not outlive its line. -/
  | name (s : String)
  deriving Inhabited

/-- The entries of an object. -/
abbrev Entries := List (Value × Value)

namespace Value

def typeName : Value → String
  | none => "none"
  | bool _ => "boolean"
  | int _ => "integer"
  | float _ => "float"
  | string _ => "string"
  | array _ => "array"
  | object _ => "object"
  | name _ => "identifier"

def isCompound : Value → Bool
  | array _ | object _ => true
  | _ => false

def isNumeric : Value → Bool
  | int _ | float _ => true
  | _ => false

def isObject : Value → Bool
  | object _ => true
  | _ => false

def isString : Value → Bool
  | string _ => true
  | _ => false

/-- The name that a value is, if it is only a name. -/
def name? : Value → Option String
  | name s => some s
  | _ => Option.none

end Value

end Calculator
