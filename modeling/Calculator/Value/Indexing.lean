import Calculator.Failure
import Calculator.Value.Entries

/-!
# Indexing

Items and characters are counted from zero, or back from the end with negative indexes.
-/

namespace Calculator.Value

/-- The place that an index means among `size` others. -/
def place? (size : Nat) (index : Int) : Option Nat :=
  let i := if index < 0 then index + size else index
  if 0 ≤ i ∧ i < size then some i.toNat else Option.none

/-- Only an integer can be the index of an item. -/
def placeOf (site : Site) (size : Nat) (index : Value) : Attempt Nat :=
  match index with
  | int i =>
    match place? size i with
    | some place => .ok place
    | Option.none => Attempt.fail site (.noSuchKey index)
  | _ => Attempt.fail site (.valueType .int)

def itemAt (site : Site) (items : List Value) (index : Value) : Attempt Value := do
  let place ← placeOf site items.length index
  match items[place]? with
  | some item => return item
  | Option.none => Attempt.fail site (.noSuchKey index)

def entryAt (site : Site) (entries : Entries) (key : Value) : Attempt Value :=
  match entries.find? key with
  | some value => .ok value
  | Option.none => Attempt.fail site (.noSuchKey key)

def lookup (site : Site) (target index : Value) : Attempt Value :=
  match target with
  | array items => itemAt site items index
  | object entries => entryAt site entries index
  | string s => itemAt site (s.toList.map fun c => string c.toString) index
  | _ => Attempt.fail site (.valueType .array)

end Calculator.Value
