import Calculator.Number.Range
import Calculator.Number.Reading
import Calculator.Value.Entries

/-!
# Conversions

Every value has a truth, items and entries. Some stand for an integer or a float. An array of one
item stands for what the item stands for.
-/

namespace Calculator.Value

open Calculator.Number

def truth : Value → Bool
  | none | name _ => false
  | bool b => b
  | int n => n != 0
  | float x => x != 0.0
  | string s => s != ""
  | array items => !items.isEmpty
  | object entries => !entries.isEmpty

/-- Text without the commas in it and the blanks around it. -/
def numeral (s : String) : String := Text.trim (removeCommas s)

/-- The digits before the point, when they are in range. -/
def wholeInRange? (x : Float) : Option Int :=
  match truncate x with
  | .ok n => if inRange n then some n else Option.none
  | .error _ => Option.none

/-- Integers in text have no bounds. Other numbers must be in range. -/
def integerInText? (s : String) : Option Int :=
  let s := numeral s
  match readInteger? s with
  | some n => some n
  | Option.none => (readFloat? s).bind wholeInRange?

def integer? : Value → Option Int
  | bool b => some (if b then 1 else 0)
  | int n => some n
  | float x => wholeInRange? x
  | string s => integerInText? s
  | array [item] => integer? item
  | _ => Option.none

def float? : Value → Except Fault (Option Float)
  | bool b => .ok (some (if b then 1.0 else 0.0))
  | int n => (toFloat n).map some
  | float x => .ok (some x)
  | string s => .ok (readFloat? (numeral s))
  | array [item] => float? item
  | _ => .ok Option.none

/-- A value that holds no others is its own only item. -/
def items : Value → List Value
  | none => []
  | array items => items
  | object entries => entries.map (·.2)
  | value => [value]

def entries : Value → Entries
  | object entries => entries
  | value => .ofItems value.items

def size (value : Value) : Nat := value.items.length

end Calculator.Value
