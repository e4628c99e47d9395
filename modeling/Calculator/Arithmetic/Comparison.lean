import Calculator.Failure
import Calculator.Text.Quoted
import Calculator.Value.Conversion
import Calculator.Value.Equality

/-!
# Comparisons

All values can be equal or not. For the order, a string on either side makes both sides text, and
everything else is compared as floats.
-/

namespace Calculator

inductive Comparator where
  | eq | ne | lt | gt | le | ge
  deriving DecidableEq, Repr

namespace Comparator

def ofName? : String → Option Comparator
  | "eq" => some eq
  | "ne" => some ne
  | "lt" => some lt
  | "gt" => some gt
  | "le" => some le
  | "ge" => some ge
  | _ => none

/-- Two sides that can be put in order. -/
inductive Sides where
  | texts (a b : String)
  | floats (x y : Float)

/-- What has no order is no number. -/
def comparable (site : Site) (value : Value) : Attempt Float := do
  if value.isCompound then Attempt.fail site (.valueType .number)
  else
    match ← Attempt.ofFault value.float? with
    | some x => return x
    | none => Attempt.fail site (.valueType .number)

def Sides.of (site : Site) (left right : Value) : Attempt Sides :=
  if left.isString || right.isString then .ok (.texts left.text right.text)
  else do return .floats (← comparable site left) (← comparable site right)

/-- Equality is not an order and is not asked here. -/
def holds : Comparator → Sides → Bool
  | lt, .texts a b => a < b
  | gt, .texts a b => b < a
  | le, .texts a b => !(b < a)
  | ge, .texts a b => !(a < b)
  | lt, .floats x y => x < y
  | gt, .floats x y => y < x
  | le, .floats x y => x ≤ y
  | ge, .floats x y => y ≤ x
  | eq, _ | ne, _ => false

def compare (site : Site) (comparator : Comparator) (left right : Value) : Attempt Bool :=
  match comparator with
  | eq => Attempt.ofFault (left.equal? right)
  | ne => do return !(← Attempt.ofFault (left.equal? right))
  | order => do return order.holds (← Sides.of site left right)

/-- As `compare`, for a comparison known by name. -/
def compareNamed (site : Site) (name : String) (left right : Value) : Attempt Bool :=
  match ofName? name with
  | some comparator => comparator.compare site left right
  | none => do
    let _ ← Sides.of site left right
    Attempt.fail site (.internal ("unknown comparison " ++ Text.quoted name))

end Comparator

end Calculator
