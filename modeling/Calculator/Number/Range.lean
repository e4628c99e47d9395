/-!
# The range of integers

An integer has sixty-four bits, and the highest one is its sign.
-/

namespace Calculator

/-- How many integers sixty-four bits can tell apart. -/
def wordSize : Nat := 0x10000000000000000

def intMin : Int := -0x8000000000000000

def intMax : Int := 0x7FFFFFFFFFFFFFFF

def inRange (n : Int) : Bool := intMin ≤ n && n ≤ intMax

/-- The lowest sixty-four bits, read with a sign. -/
def wrap (n : Int) : Int := n.bmod wordSize

/-- The lowest sixty-four bits, read without a sign. -/
def wordOf (n : Int) : Nat := (n % wordSize).toNat

end Calculator
