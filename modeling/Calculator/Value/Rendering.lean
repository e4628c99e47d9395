import Calculator.Number.Notation
import Calculator.Value.Basic

/-! # Values as text -/

namespace Calculator.Value

open Calculator.Number

/-- Below ten to the fifteenth, eight more places are within reach of a float, so nothing fails. -/
def floatText (x : Float) : String :=
  match rounded x shownPlaces with
  | .ok text => text
  | .error _ => display x

def boolText (b : Bool) : String := if b then "true" else "false"

mutual

def text : Value → String
  | none => ""
  | bool b => boolText b
  | int n => toString n
  | float x => floatText x
  | string s => s
  | array items => "[" ++ itemTexts items ++ "]"
  | object entries => "\x7b" ++ entryTexts entries ++ "\x7d"
  | name s => s

def itemTexts : List Value → String
  | [] => ""
  | [item] => text item
  | item :: items => text item ++ ", " ++ itemTexts items

def entryTexts : List (Value × Value) → String
  | [] => ""
  | [(key, value)] => text key ++ ": " ++ text value
  | (key, value) :: entries => text key ++ ": " ++ text value ++ ", " ++ entryTexts entries

end

end Calculator.Value
