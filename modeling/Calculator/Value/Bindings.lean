import Calculator.Value.Basic

/-!
# Variables

Names and their values, in the order in which the names came. A new value for a name that is there
keeps its place.
-/

namespace Calculator

abbrev Named (α : Type) := List (String × α)

namespace Named

variable {α : Type}

def put (entries : Named α) (name : String) (a : α) : Named α :=
  match entries with
  | [] => [(name, a)]
  | entry :: others => if entry.1 = name then (name, a) :: others else entry :: put others name a

theorem lookup_put_self (entries : Named α) (name : String) (a : α) :
    (entries.put name a).lookup name = some a := by
  induction entries with
  | nil => rw [put, List.lookup_cons_self]
  | cons entry others ih =>
    obtain ⟨key, old⟩ := entry
    rw [put]
    by_cases hkey : key = name
    · rw [if_pos hkey, List.lookup_cons_self]
    · have hname : (name == key) = false := beq_false_of_ne (Ne.symm hkey)
      rw [if_neg hkey, List.lookup_cons, hname]
      exact ih

/-- Other names keep what they stand for. -/
theorem lookup_put_of_ne {name other : String} (h : other ≠ name) (entries : Named α) (a : α) :
    (entries.put name a).lookup other = entries.lookup other := by
  have hother : (other == name) = false := beq_false_of_ne h
  induction entries with
  | nil => rw [put, List.lookup_cons, hother]
  | cons entry others ih =>
    obtain ⟨key, old⟩ := entry
    rw [put]
    by_cases hkey : key = name
    · subst hkey
      rw [if_pos rfl, List.lookup_cons, List.lookup_cons, hother]
    · rw [if_neg hkey, List.lookup_cons, List.lookup_cons, ih]

end Named

abbrev Bindings := Named Value

namespace Bindings

def get? (bindings : Bindings) (name : String) : Option Value := bindings.lookup name

def sorted (bindings : Bindings) : Bindings := bindings.mergeSort fun a b => a.1 ≤ b.1

end Bindings

/-- Names that no script can change. -/
def constants : Bindings :=
  let pi := Value.float 3.141592653589793
  let tau := Value.float 6.283185307179586
  [("pi", pi), ("e", .float 2.718281828459045), ("tau", tau), ("π", pi), ("τ", tau)]

def isConstant (name : String) : Bool := (constants.lookup name).isSome

end Calculator
