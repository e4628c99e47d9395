import Calculator.Failure

/-!
# Element by element

An operation on scalars reaches into arrays and objects. Two arrays of one length meet item by item.
A scalar meets every item of an array and every value of an object.
-/

namespace Calculator.Arithmetic

abbrev ScalarOperation := Value → Value → Attempt Value

section

variable (site : Site) (operation : ScalarOperation)

mutual

/-- One scalar with everything on its right. -/
def meetRight (left : Value) : Value → Attempt Value
  | .name s => Attempt.fail site (.unknownVariable s)
  | .array items => do return .array (← meetItems left items)
  | .object entries => do return .object (← meetEntries left entries)
  | right => operation left right

def meetItems (left : Value) : List Value → Attempt (List Value)
  | [] => .ok []
  | item :: items => do return (← meetRight left item) :: (← meetItems left items)

def meetEntries (left : Value) : Entries → Attempt Entries
  | [] => .ok []
  | (key, value) :: entries => do
    return (key, ← meetRight left value) :: (← meetEntries left entries)

end

/-- A name on the right is found out before the left side is looked into. -/
def refuseName (right : Value) : Attempt Unit :=
  match right.name? with
  | some s => Attempt.fail site (.unknownVariable s)
  | none => .ok ()

mutual

def broadcast : Value → Value → Attempt Value
  | .name s, _ => Attempt.fail site (.unknownVariable s)
  | .array items, right => do
    refuseName site right
    match right with
    | .array others =>
      if items.length = others.length then return .array (← pairItems items others)
      else Attempt.fail site .lengthMismatch
    | .object _ => Attempt.fail site (.valueType .array)
    | scalar => return .array (← broadcastItems items scalar)
  | .object entries, right => do
    refuseName site right
    match right with
    | .array _ => Attempt.fail site (.valueType .object)
    | .object _ => Attempt.fail site (.valueType .number)
    | scalar => return .object (← broadcastEntries entries scalar)
  | left, right => meetRight site operation left right

def pairItems : List Value → List Value → Attempt (List Value)
  | left :: lefts, right :: rights => do
    return (← broadcast left right) :: (← pairItems lefts rights)
  | _, _ => .ok []

def broadcastItems : List Value → Value → Attempt (List Value)
  | [], _ => .ok []
  | left :: lefts, right => do
    return (← broadcast left right) :: (← broadcastItems lefts right)

def broadcastEntries : Entries → Value → Attempt Entries
  | [], _ => .ok []
  | (key, left) :: lefts, right => do
    return (key, ← broadcast left right) :: (← broadcastEntries lefts right)

end

end

/-! ## Floats inside -/

mutual

/-- Whether a float is among the items and values, at any depth. -/
def holdsFloat : Value → Bool
  | .float _ => true
  | .array items => anyHoldsFloat items
  | .object entries => anyValueHoldsFloat entries
  | _ => false

def anyHoldsFloat : List Value → Bool
  | [] => false
  | item :: items => holdsFloat item || anyHoldsFloat items

def anyValueHoldsFloat : Entries → Bool
  | [] => false
  | (_, value) :: entries => holdsFloat value || anyValueHoldsFloat entries

end

end Calculator.Arithmetic
