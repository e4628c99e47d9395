import Calculator.Value.Equality

/-!
# The entries of an object

A key finds the first entry whose key equals it. A new value for a key that is there keeps the old
key and its place.
-/

namespace Calculator.Entries

def find? (entries : Entries) (key : Value) : Option Value :=
  (List.find? (fun entry => entry.1.equal key) entries).map (·.2)

def holds (entries : Entries) (key : Value) : Bool :=
  entries.any fun entry => entry.1.equal key

def insert (entries : Entries) (key value : Value) : Entries :=
  match entries with
  | [] => [(key, value)]
  | entry :: rest =>
    if entry.1.equal key then (entry.1, value) :: rest else entry :: insert rest key value

/-- Takes out the entry that the key finds. -/
def erase (entries : Entries) (key : Value) : Entries :=
  List.eraseP (fun entry => entry.1.equal key) entries

/-- All of `others`, one after the other. -/
def insertAll (entries others : Entries) : Entries :=
  others.foldl (fun entries entry => insert entries entry.1 entry.2) entries

def ofList (pairs : List (Value × Value)) : Entries := insertAll [] pairs

/-- The items of an array under their places. -/
def ofItems (items : List Value) : Entries :=
  items.zipIdx.map fun (item, i) => (.int i, item)

end Calculator.Entries
