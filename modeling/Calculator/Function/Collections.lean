import Calculator.Function.Mapping
import Calculator.Value.Indexing

/-! # Functions of arrays and objects -/

namespace Calculator.Builtin

def collection (name : String) (parameters : List Parameter) (description : String)
    (f : Call → Attempt Value) : Function :=
  ⟨⟨name, parameters⟩, description, some "arrays", .compute f⟩

def input (call : Call) : Attempt Value := call.required "input"

def len (call : Call) : Attempt Value := do return .int (← input call).size

def isEmpty (call : Call) : Attempt Value := do return .bool ((← input call).size = 0)

/-- The items, of which there must be one at least. -/
def someItems (call : Call) : Attempt (List Value) := do
  let items := (← input call).items
  if items.isEmpty then call.fail .emptyArray else return items

def pop (call : Call) : Attempt Value := do return .array (← someItems call).dropLast

def dequeue (call : Call) : Attempt Value := do return .array ((← someItems call).drop 1)

def push (call : Call) : Attempt Value := do
  return .array ((← input call).items ++ [← call.required "element"])

def element (call : Call) : Attempt Value := do
  let container ← input call
  let index ← call.required "index"
  match container with
  | .object entries => Value.entryAt call.site entries index
  | _ => Value.itemAt call.site container.items index

def remove (call : Call) : Attempt Value := do
  let container ← input call
  let index ← call.required "index"
  match container with
  | .object entries =>
    let _ ← Value.entryAt call.site entries index
    return .object (Entries.erase entries index)
  | _ =>
    let place ← Value.placeOf call.site container.items.length index
    return .array (container.items.eraseIdx place)

/-- Later objects put their values in the place of earlier ones. -/
def merge (call : Call) : Attempt Value :=
  let inputs := call.all "input"
  if inputs.all (·.isObject) then
    .ok (.object (inputs.foldl (fun entries value => Entries.insertAll entries value.entries) []))
  else .ok (.array (inputs.flatMap (·.items)))

def keys (call : Call) : Attempt Value := do return .array ((← input call).entries.map (·.1))

def values (call : Call) : Attempt Value := do return .array (← input call).items

def arrayInput : Parameter := { name := "input", expected := .array }

def objectInput : Parameter := { name := "input", expected := .object }

def collectionFunctions : List Function :=
  [collection "len" [arrayInput] "Returns the length of the given array or object" len,
    collection "is_empty" [arrayInput] "Returns true if the given array or object is empty"
      isEmpty,
    collection "pop" [arrayInput] "Returns the array without its last element" pop,
    collection "push" [arrayInput, .anything "element"]
      "Returns the array with element appended" push,
    collection "dequeue" [arrayInput] "Returns the array without its first element" dequeue,
    collection "enqueue" [arrayInput, .anything "element"]
      "Returns the array with element appended" push,
    collection "remove" [arrayInput, .anything "index"]
      "Removes an element from an array by index, or from an object by key" remove,
    collection "element" [arrayInput, .anything "index"]
      "Returns an element from an array by index, or from an object by key" element,
    collection "merge" [{ arrayInput with plural := true }]
      "Merges arrays into one array, or objects into one object" merge,
    collection "keys" [objectInput]
      "Returns the keys of an object, or the indices of an array" keys,
    collection "values" [objectInput]
      "Returns the values of an object, or the elements of an array" values]

end Calculator.Builtin
