import Calculator.Number.Exact
import Calculator.Value.Entries

/-!
# Plain data

Extensions hand over plain data or values. Their dictionaries tell keys apart by the exact number:
`1`, `1.0` and true are one key, `1` and `3` are two.
-/

namespace Calculator

open Number

inductive Plain where
  | none
  | bool (b : Bool)
  | int (n : Int)
  | float (x : Float)
  | string (s : String)
  | list (items : List Plain)
  | tuple (items : List Plain)
  | dict (entries : List (Plain × Plain))
  /-- Data of a kind that stands for no value, such as raw bytes. -/
  | foreign (kind : String)
  | value (v : Value)
  deriving Inhabited

namespace Plain

/-- The number that a key counts as. -/
def number? : Plain → Option Exact
  | bool b => some (.ofInt (if b then 1 else 0))
  | int n => some (.ofInt n)
  | float x => some (exact x)
  | _ => Option.none

mutual

/-- Whether two keys are one. -/
def sameKey : Plain → Plain → Bool
  | none, none => true
  | foreign k, foreign l => k == l
  | string s, string t => s == t
  | tuple xs, tuple ys => sameKeys xs ys
  | value v, value w => v.equal w
  | a, b =>
    match number? a, number? b with
    | some x, some y => x.same y
    | _, _ => false

def sameKeys : List Plain → List Plain → Bool
  | [], [] => true
  | x :: xs, y :: ys => sameKey x y && sameKeys xs ys
  | _, _ => false

end

/-- A key that is there already keeps its place and its form. -/
def insert (key item : Plain) : List (Plain × Plain) → List (Plain × Plain)
  | [] => [(key, item)]
  | entry :: entries =>
    if entry.1.sameKey key then (entry.1, item) :: entries else entry :: insert key item entries

def ofPairs (pairs : List (Plain × Plain)) : Plain :=
  .dict (pairs.foldl (fun entries pair => insert pair.1 pair.2 entries) [])

/-- What is said of data of a kind that stands for no value. -/
def complaint (kind : String) : String := s!"cannot convert {kind} to a value"

mutual

/-- The value that the data stands for, or the kind of its first part that stands for none. -/
def toValue : Plain → Except String Value
  | none => .ok .none
  | bool b => .ok (.bool b)
  | int n => .ok (.int n)
  | float x => .ok (.float x)
  | string s => .ok (.string s)
  | list items | tuple items => do return .array (← toValues items)
  | dict entries => do return .object (Entries.ofList (← toEntries entries))
  | foreign kind => .error kind
  | value v => .ok v

def toValues : List Plain → Except String (List Value)
  | [] => .ok []
  | item :: items => do return (← toValue item) :: (← toValues items)

def toEntries : List (Plain × Plain) → Except String (List (Value × Value))
  | [] => .ok []
  | (key, item) :: entries => do
    return (← toValue key, ← toValue item) :: (← toEntries entries)

end

def toValue? (plain : Plain) : Option Value := plain.toValue.toOption

mutual

/-- A value as plain data. Arrays and objects cannot be keys there. -/
def ofValue : Value → Except Fault Plain
  | .none | .name _ => .ok none
  | .bool b => .ok (bool b)
  | .int n => .ok (int n)
  | .float x => .ok (float x)
  | .string s => .ok (string s)
  | .array items => do return list (← ofValues items)
  | .object entries => do return ofPairs (← ofEntries entries)

def ofValues : List Value → Except Fault (List Plain)
  | [] => .ok []
  | item :: items => do return (← ofValue item) :: (← ofValues items)

def ofEntries : List (Value × Value) → Except Fault (List (Plain × Plain))
  | [] => .ok []
  | (key, item) :: entries => do
    if key.isCompound then .error .compoundKey
    return (← ofValue key, ← ofValue item) :: (← ofEntries entries)

end

end Plain

end Calculator
