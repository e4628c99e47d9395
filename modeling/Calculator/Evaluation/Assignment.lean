import Calculator.Evaluation.Outcome
import Calculator.Value.Entries

/-! # Assignment -/

namespace Calculator.Evaluation

/-- An index just past the last item adds one more. Negative indexes are not counted back here. -/
def updateItem (site : Site) (items : List Value) (index value : Value) : Attempt (List Value) :=
  match index with
  | .int (.ofNat i) =>
    if i < items.length then .ok (items.set i value)
    else if i = items.length then .ok (items ++ [value])
    else Attempt.fail site (.noSuchKey index)
  | .int _ => Attempt.fail site (.noSuchKey index)
  | _ => Attempt.fail site (.valueType .int)

/-- The container with a value in another place. -/
def updated (site : Site) (container index value : Value) : Attempt Value :=
  match container with
  | .object entries => .ok (.object (Entries.insert entries index value))
  | .array items => do return .array (← updateItem site items index value)
  | _ => Attempt.fail site (.valueType .array)

def assign (site : Site) (name : String) (value : Value) : Evaluation Unit :=
  if isConstant name then fail site (.constant name)
  else modify fun memory => { memory with bindings := memory.bindings.put name value }

def assignIndexed (site : Site) (name : String) (index value : Value) : Evaluation Unit := do
  if isConstant name then fail site (.constant name)
  else
    match (← get).bindings.get? name with
    | none => fail site (.unknownVariable name)
    | some container => assign site name (← ofAttempt (updated site container index value))

end Calculator.Evaluation
