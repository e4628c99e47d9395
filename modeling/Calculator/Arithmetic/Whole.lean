import Calculator.Number.Range

/-!
# Integer arithmetic

Results are exact. An operation that leaves the range of integers has no result.
-/

namespace Calculator.Arithmetic

def checked (n : Int) : Option Int := if inRange n then some n else none

def addInts (a b : Int) : Option Int := checked (a + b)

def subtractInts (a b : Int) : Option Int := checked (a - b)

def multiplyInts (a b : Int) : Option Int := checked (a * b)

/-- The quotient without its fraction. -/
def divideInts (a b : Int) : Option Int := if b = 0 then none else checked (a.tdiv b)

/-- Never negative. -/
def remainderInts (a b : Int) : Option Int := if b = 0 then none else some (a % b)

def largestExponent : Nat := 0xFFFFFFFF

/-- A negative exponent gives a fraction, and only its whole part is kept. -/
def powerInts (a b : Int) : Option Int :=
  if largestExponent < b.natAbs then none
  else if b < 0 then
    if a = 0 then none
    else if a.natAbs = 1 then some (a.pow b.natAbs)
    else some 0
  else if 1 < a.natAbs ∧ 64 < b then none
  else checked (a.pow b.natAbs)

/-! ## Bits -/

/-- Shifts go by at most sixty-three places. -/
def places (b : Int) : Nat := (b % 64).toNat

def shiftLeftInts (a b : Int) : Int := wrap (a * Nat.pow 2 (places b))

def shiftRightInts (a b : Int) : Int := a / Nat.pow 2 (places b)

/-- The bits of `m` that `n` lacks. -/
def without (m n : Nat) : Nat := m ^^^ (m &&& n)

/-- Negative numbers go on with ones to the left forever, so their complements are finite. -/
def bitAndInts : Int → Int → Int
  | .ofNat m, .ofNat n => .ofNat (m &&& n)
  | .ofNat m, .negSucc n => .ofNat (without m n)
  | .negSucc m, .ofNat n => .ofNat (without n m)
  | .negSucc m, .negSucc n => .negSucc (m ||| n)

def bitOrInts : Int → Int → Int
  | .ofNat m, .ofNat n => .ofNat (m ||| n)
  | .ofNat m, .negSucc n => .negSucc (without n m)
  | .negSucc m, .ofNat n => .negSucc (without m n)
  | .negSucc m, .negSucc n => .negSucc (m &&& n)

def bitXorInts : Int → Int → Int
  | .ofNat m, .ofNat n => .ofNat (m ^^^ n)
  | .ofNat m, .negSucc n => .negSucc (m ^^^ n)
  | .negSucc m, .ofNat n => .negSucc (m ^^^ n)
  | .negSucc m, .negSucc n => .ofNat (m ^^^ n)

/-- A positive number is complemented in just the bits that it has. -/
def complementInt (n : Int) : Int :=
  if n ≤ 0 then -n - 1 else (-n - 1) % Nat.pow 2 (n.toNat.log2 + 1)

/-! ## One operand -/

def negateInt (n : Int) : Option Int := checked (-n)

/-- Multiplies by one number after the other, as long as the product is in range. -/
def multiplyUp (product : Int) (next : Nat) : Nat → Option Int
  | 0 => some product
  | rounds + 1 =>
    if intMax < product * next then none else multiplyUp (product * next) (next + 1) rounds

def factorialNat (n : Nat) : Option Int := multiplyUp 1 2 (n - 1)

end Calculator.Arithmetic
