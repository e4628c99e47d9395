import Calculator.Value.Entries

/-!
# Hashes of values

A table of entries compares two keys only if their hashes are the same. How texts, numbers and
several hashes are hashed is left open.
-/

namespace Calculator

variable {α : Type}

/-- How the parts of values are hashed. -/
structure Hasher (α : Type) where
  nothing : α
  number : Int → α
  text : String → α
  /-- Several hashes in their order. -/
  tuple : List α → α

/-- All numbers but zero have one hash, because `true` equals them all. -/
def Hasher.numeric (hasher : Hasher α) (nonzero : Bool) : α :=
  hasher.tuple [hasher.text "numeric", hasher.number (if nonzero then 1 else 0)]

namespace Value

mutual

def hash (hasher : Hasher α) : Value → α
  | none => hasher.nothing
  | bool b => hasher.numeric b
  | int n => hasher.numeric (n != 0)
  | float x => hasher.numeric (x != 0.0)
  | string s => hasher.text s
  | array items => hasher.tuple (hashes hasher items)
  | object entries => hasher.number entries.length
  | name s => hasher.tuple [hasher.text "identifier", hasher.text s]

def hashes (hasher : Hasher α) : List Value → List α
  | [] => []
  | item :: items => hash hasher item :: hashes hasher items

end

/-- Whether a table takes the one key for the other. -/
def matchesKey [BEq α] (hasher : Hasher α) (stored key : Value) : Bool :=
  stored.hash hasher == key.hash hasher && stored.equal key

end Value

/-- What the key leads to in a table. -/
def Entries.hashedFind? [BEq α] (hasher : Hasher α) (entries : Entries) (key : Value) :
    Option Value :=
  (List.find? (fun entry => entry.1.matchesKey hasher key) entries).map (·.2)

end Calculator
