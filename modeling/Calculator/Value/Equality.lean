import Calculator.Number.Exact
import Calculator.Value.Basic

/-!
# Equality of values

Numbers of both kinds are compared as floats, and a boolean equals every number of its truth. So
`true` equals `1` and `3`, which are not equal. Objects are equal when every key of the first leads
to the same value in the second.
-/

namespace Calculator.Value

open Calculator.Number

/-- An integer is compared as the float nearest to it, if there is one. -/
def sameNumber (n : Int) (x : Float) : Bool :=
  match toFloat? n with
  | some y => y == x
  | Option.none => false

mutual

/-- Whether `a` equals `b`, or when `swapped`, whether `b` equals `a`. -/
def sameAs (swapped : Bool) : Value → Value → Bool
  | int m, int n => m == n
  | int n, float x | float x, int n => sameNumber n x
  | float x, float y => x == y
  | bool p, int n | int n, bool p => p == (n != 0)
  | bool p, float x | float x, bool p => p == (x != 0.0)
  | bool p, bool q => p == q
  | string s, string t => s == t
  | array xs, array ys => sameItems swapped xs ys
  | object xs, object ys =>
    xs.length == ys.length &&
      if swapped then ys.all fun entry => leadsTo xs entry.1 entry.2 else covered xs ys
  | none, none => true
  | name s, name t => s == t
  | _, _ => false

def sameItems (swapped : Bool) : List Value → List Value → Bool
  | [], [] => true
  | x :: xs, y :: ys => sameAs swapped x y && sameItems swapped xs ys
  | _, _ => false

/-- Every entry is found among the others. -/
def covered : Entries → Entries → Bool
  | [], _ => true
  | (key, value) :: rest, others =>
    (match others.find? fun entry => sameAs true key entry.1 with
      | some entry => sameAs false value entry.2
      | Option.none => false) && covered rest others

/-- The first entry with the key has the value. -/
def leadsTo : Entries → Value → Value → Bool
  | [], _, _ => false
  | (key, value) :: rest, sought, expected =>
    if sameAs false key sought then sameAs true value expected else leadsTo rest sought expected

end

def equal (a b : Value) : Bool := sameAs false a b

/-! ## Integers beyond every float -/

mutual

/-- To compare the two means to turn an integer into a float that is too small for it. -/
def outgrows : Value → Value → Bool
  | int n, float _ | float _, int n => (toFloat? n).isNone
  | array xs, array ys => xs.length == ys.length && outgrowsAmong xs ys
  | object xs, object ys => xs.length == ys.length && outgrowsEntries xs ys
  | _, _ => false

def outgrowsAmong : List Value → List Value → Bool
  | x :: xs, y :: ys => outgrows x y || (equal x y && outgrowsAmong xs ys)
  | _, _ => false

def outgrowsEntries : Entries → Entries → Bool
  | [], _ => false
  | (key, value) :: rest, others =>
    match others.find? fun entry => equal entry.1 key with
    | some entry => outgrows value entry.2 || (equal value entry.2 && outgrowsEntries rest others)
    | Option.none => false

end

def equal? (a b : Value) : Except Fault Bool :=
  if outgrows a b then .error .beyondFloat else .ok (equal a b)

end Calculator.Value
