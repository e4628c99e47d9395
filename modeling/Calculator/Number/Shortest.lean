import Calculator.Number.Exact

/-!
# The shortest decimal for a float

Of all decimals that read back as the float, the one with the fewest digits, and of those the
nearest.
-/

namespace Calculator.Number

/-- A decimal in scientific form: the point stands after the first digit. -/
structure Decimal where
  digits : List Char
  exponent : Int
  deriving DecidableEq, Repr

def decimalDigits (n : Nat) : List Char := Nat.toDigits 10 n

/-- The power of ten of the first digit of `num / den`. -/
def leadingPower (num den : Nat) : Int :=
  if den ≤ num then (decimalDigits (num / den)).length - 1
  else
    let places := (decimalDigits (den / num)).length
    if den ≤ num * Nat.pow 10 (places - 1) then -(places - 1 : Int) else -places

/-- The decimals that read back as one float, all over one denominator. -/
structure Interval where
  value : Nat
  low : Nat
  high : Nat
  den : Nat
  /-- The ends belong to it. -/
  closed : Bool

/-- Halfway to the next float on each side. Below a power of two the next one is nearer. -/
def interval (m : Nat) (e : Int) : Interval :=
  let low := if m = leadingBit ∧ -1074 < e then 4 * m - 1 else 4 * m - 2
  let scale := if 2 ≤ e then Nat.pow 2 (e - 2).toNat else 1
  let den := if 2 ≤ e then 1 else Nat.pow 2 (2 - e).toNat
  ⟨4 * m * scale, low * scale, (4 * m + 2) * scale, den, m % 2 = 0⟩

def Interval.scale (i : Interval) (factor : Nat) : Interval :=
  { i with value := i.value * factor, low := i.low * factor, high := i.high * factor }

def Interval.holds (i : Interval) (x : Nat) : Bool :=
  if i.closed then i.low ≤ x && x ≤ i.high else i.low < x && x < i.high

/-- The best number of units of ten to the `power` in the interval, if one is there. -/
def Interval.nearest? (i : Interval) (power : Int) : Option Nat :=
  let i := if power < 0 then i.scale (Nat.pow 10 (-power).toNat) else i
  let unit := if power < 0 then i.den else Nat.pow 10 power.toNat * i.den
  let below := i.value / unit
  let above := below + 1
  match i.holds (below * unit), i.holds (above * unit) with
  | false, false => none
  | true, false => some below
  | false, true => some above
  | true, true =>
    let left := i.value - below * unit
    let right := above * unit - i.value
    some (if left < right then below
      else if right < left then above
      else if below % 2 = 0 then below else above)

def Decimal.ofUnits (n : Nat) (power : Int) : Decimal :=
  let ds := decimalDigits n
  let kept := (ds.reverse.dropWhile (· = '0')).reverse
  ⟨if kept.isEmpty then ['0'] else kept, power + (ds.length - 1)⟩

/-- Seventeen digits are always enough. -/
def shortest (m : Nat) (e : Int) : Decimal :=
  let i := interval m e
  let first := leadingPower i.value i.den
  let found := (List.range 17).findSome? fun (more : Nat) =>
    let power := first - more
    (i.nearest? power).map (Decimal.ofUnits · power)
  found.getD ⟨['0'], 0⟩

end Calculator.Number
