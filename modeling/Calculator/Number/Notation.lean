import Calculator.Number.Shortest

/-!
# Writing floats

Positional, scientific and general notation of the shortest decimal, and rounding to a number of
places.
-/

namespace Calculator.Number

/-- The digits with the point put where it belongs. A whole number has none. -/
def Decimal.positional (d : Decimal) : List Char :=
  if d.exponent < 0 then
    '0' :: '.' :: (List.replicate (-d.exponent - 1).toNat '0' ++ d.digits)
  else
    let before := d.exponent.toNat + 1
    if d.digits.length ≤ before then
      d.digits ++ List.replicate (before - d.digits.length) '0'
    else d.digits.take before ++ '.' :: d.digits.drop before

/-- One digit, and the others after a point. -/
def Decimal.mantissa (d : Decimal) : List Char :=
  match d.digits with
  | [] => []
  | [c] => [c]
  | c :: cs => c :: '.' :: cs

def minus (negative : Bool) : List Char := if negative then ['-'] else []

/-! ## Positional -/

/-- Every digit that is needed, and no exponent. -/
def display (x : Float) : String :=
  match exact x with
  | .nan => "NaN"
  | .infinite s => String.ofList (minus s ++ ['i', 'n', 'f'])
  | .finite s 0 _ => String.ofList (minus s ++ ['0'])
  | .finite s m e => String.ofList (minus s ++ (shortest m e).positional)

/-- Ten to a power: exact for whole powers, a float for the others. -/
def decimalScale (places : Int) : Except Fault Float :=
  if 0 ≤ places then toFloat (Nat.pow 10 places.toNat) else .ok (Float.pow 10.0 (Float.ofInt places))

/-- Past a thousand million million there are no places left to round. -/
def roundTo (x : Float) (places : Int) : Except Fault Float :=
  if x.abs < 1e15 then do
    let scale ← decimalScale places
    if scale == 0.0 then .error .vanishedUnit
    return (← roundHalfAway (x * scale)) / scale
  else .ok x

def withPoint (text : String) : String :=
  if text.toList.contains '.' then text else text ++ ".0"

/-- Rounded to the given places. A whole number keeps one place, and zero has no sign. -/
def rounded (x : Float) (places : Int) : Except Fault String :=
  if x.isFinite then do
    let y ← roundTo x places
    return withPoint (display (if y == 0.0 then 0.0 else y))
  else .ok (display x)

/-- The places that floats are shown with. -/
def shownPlaces : Int := 8

/-! ## Scientific -/

def scientific (x : Float) : String :=
  match exact x with
  | .nan | .infinite _ => display x
  | .finite _ 0 _ => "0e0"
  | .finite s m e =>
    let d := shortest m e
    String.ofList (minus s ++ d.mantissa) ++ "e" ++ toString d.exponent

/-! ## General -/

/-- The sign is always written, and so are two digits. -/
def exponentMark (e : Int) : String :=
  let ds := decimalDigits e.natAbs
  let ds := if ds.length < 2 then '0' :: ds else ds
  "e" ++ (if e < 0 then "-" else "+") ++ String.ofList ds

/-- Positional from `0.0001` to below ten to the sixteenth, with an exponent outside of that. -/
def general (x : Float) : String :=
  match exact x with
  | .nan => "nan"
  | .infinite _ => display x
  | .finite s 0 _ => String.ofList (minus s ++ ['0', '.', '0'])
  | .finite s m e =>
    let d := shortest m e
    let text :=
      if -4 ≤ d.exponent ∧ d.exponent < 16 then withPoint (String.ofList d.positional)
      else String.ofList d.mantissa ++ exponentMark d.exponent
    String.ofList (minus s) ++ text

/-! ## Two places -/

/-- To the nearest whole number. A half goes to the even one. -/
def divideHalfEven (num den : Nat) : Nat :=
  let q := num / den
  let twice := 2 * (num % den)
  if twice < den then q
  else if den < twice then q + 1
  else if q % 2 = 0 then q else q + 1

/-- A comma before every three digits, counted from the right. -/
def grouped (ds : List Char) : List Char :=
  match ds with
  | [] => []
  | c :: cs =>
    if cs.length % 3 = 0 ∧ cs ≠ [] then c :: ',' :: grouped cs else c :: grouped cs

/-- Two places of the exact number, with commas between thousands. -/
def money (x : Float) : String :=
  match exact x with
  | .nan => "nan"
  | .infinite _ => display x
  | .finite s m e =>
    let num := if 0 ≤ e then m * Nat.pow 2 e.toNat * 100 else m * 100
    let den := if 0 ≤ e then 1 else Nat.pow 2 (-e).toNat
    let n := divideHalfEven num den
    let cents := decimalDigits (n % 100)
    let cents := if cents.length < 2 then '0' :: cents else cents
    String.ofList (minus s ++ grouped (decimalDigits (n / 100)) ++ '.' :: cents)

/-! ## Integers -/

def inBase (base n : Nat) : String := String.ofList (Nat.toDigits base n)

end Calculator.Number
