import Calculator.Fault

/-!
# Floats as exact numbers

A finite float is a whole number times a power of two. Rounding to whole numbers, comparison with
integers and remainders are done on that form, without loss.
-/

namespace Calculator.Number

inductive Exact where
  | nan
  | infinite (negative : Bool)
  /-- The number `mantissa * 2 ^ exponent` with its sign. -/
  | finite (negative : Bool) (mantissa : Nat) (exponent : Int)
  deriving DecidableEq, Repr

def signed (negative : Bool) (magnitude : Nat) : Int :=
  if negative then -magnitude else magnitude

def signBit : Nat := 0x8000000000000000

/-- The bit in front of the fraction of a float, which is not stored. -/
def leadingBit : Nat := 0x10000000000000

/-- Sign, then eleven bits of exponent, then the fraction. -/
def exact (x : Float) : Exact :=
  let bits := x.toBits.toNat
  let negative := bits / signBit = 1
  let field : Nat := bits / leadingBit % 2048
  let fraction : Nat := bits % leadingBit
  if field = 2047 then
    if fraction = 0 then .infinite negative else .nan
  else if field = 0 then .finite negative fraction (-1074)
  else .finite negative (fraction + leadingBit) ((field : Int) - 1075)

def isNegative (x : Float) : Bool := x.toBits.toNat / signBit = 1

/-- The size of one number with the sign of another. -/
def withSign (size sign : Float) : Float :=
  if isNegative sign then -size.abs else size.abs

def infinity : Float := 1.0 / 0.0

def notANumber : Float := 0.0 / 0.0

/-! ## Whole numbers -/

/-- Rounds a finite number with the given division. -/
def Exact.whole (divide : Int → Int → Int) : Exact → Except Fault Int
  | .nan => .error .wholeOfNaN
  | .infinite _ => .error .wholeOfInfinite
  | .finite negative m e =>
    if 0 ≤ e then .ok (signed negative m * Nat.pow 2 e.toNat)
    else .ok (divide (signed negative m) (Nat.pow 2 (-e).toNat))

def floor (x : Float) : Except Fault Int := (exact x).whole Int.fdiv

def ceiling (x : Float) : Except Fault Int := (exact x).whole fun a b => -Int.fdiv (-a) b

/-- The digits before the point. -/
def truncate (x : Float) : Except Fault Int := (exact x).whole Int.tdiv

/-- The nearest float, if the integer is not beyond them all. -/
def toFloat? (n : Int) : Option Float :=
  let x := Float.ofInt n
  if x.isFinite then some x else none

def toFloat (n : Int) : Except Fault Float :=
  match toFloat? n with
  | some x => .ok x
  | none => .error .beyondFloat

/-- To the nearest whole number. A half goes away from zero. -/
def roundHalfAway (x : Float) : Except Fault Float := do
  let n ← floor (x.abs + 0.5)
  return withSign (← toFloat n) x

/-! ## Order -/

def Exact.ofInt (n : Int) : Exact := .finite (n < 0) n.natAbs 0

/-- Two finite numbers as integers on a common scale. -/
def align (a : Int) (d : Int) (b : Int) (e : Int) : Int × Int :=
  let low := min d e
  (a * Nat.pow 2 (d - low).toNat, b * Nat.pow 2 (e - low).toNat)

def Exact.less : Exact → Exact → Bool
  | .nan, _ | _, .nan => false
  | .infinite s, .infinite t => s && !t
  | .infinite s, .finite .. => s
  | .finite .., .infinite t => !t
  | .finite s m d, .finite t n e =>
    let (a, b) := align (signed s m) d (signed t n) e
    a < b

/-- The same number. A number has many forms, one for each scale. -/
def Exact.same : Exact → Exact → Bool
  | .infinite s, .infinite t => s == t
  | .finite s m d, .finite t n e =>
    let (a, b) := align (signed s m) d (signed t n) e
    a == b
  | _, _ => false

/-! ## Remainder -/

/-- The float `m * 2 ^ e`, which must be one. -/
def ofScaled (negative : Bool) (m : Nat) (e : Int) : Float :=
  let x :=
    if 0 ≤ e then Float.ofScientific (m * Nat.pow 2 e.toNat) false 0
    else Float.ofScientific (m * Nat.pow 5 (-e).toNat) true (-e).toNat
  if negative then -x else x

/-- What is left of `x` after taking away `y` as often as it goes. Has the sign of `x`. -/
def truncatedRemainder (x y : Float) : Float :=
  match exact x, exact y with
  | .nan, _ | _, .nan | .infinite _, _ => notANumber
  | .finite .., .infinite _ => x
  | .finite s m d, .finite _ n e =>
    if n = 0 then notANumber
    else
      let (a, b) := align m d n e
      ofScaled s (a.toNat % b.toNat) (min d e)

end Calculator.Number
