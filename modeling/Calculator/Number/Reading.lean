import Calculator.Number.Exact
import Calculator.Text.Blank
import Calculator.Text.Digit

/-!
# Reading numbers

Numbers in text may carry a sign, blanks around them, decimal digits of any script, and single
underscores between digits.
-/

namespace Calculator.Number

open Calculator.Text

def removeCommas (s : String) : String := String.ofList (s.toList.filter (· ≠ ','))

/-- The number that the digits stand for in the base. -/
def ofDigits (base : Nat) (ds : List Nat) : Nat := ds.foldl (fun n d => n * base + d) 0

/-- What may stand before and after a number. -/
def isPadding (c : Char) : Bool := isBlank c && !isSeparator c

def withoutPadding (cs : List Char) : List Char :=
  ((cs.dropWhile isPadding).reverse.dropWhile isPadding).reverse

/-- A sign and what comes after it. -/
def takeSign : List Char → Bool × List Char
  | '-' :: cs => (true, cs)
  | '+' :: cs => (false, cs)
  | cs => (false, cs)

/--
Digits with single underscores between them, and the rest. `inside` says that a digit came just
before.
-/
def takeDigits (inside : Bool) : List Char → List Nat × List Char
  | [] => ([], [])
  | c :: cs =>
    match digitValue? c with
    | some d =>
      let (ds, rest) := takeDigits true cs
      (d :: ds, rest)
    | none =>
      if inside && c = '_' && cs.head?.any isDecimal then takeDigits false cs else ([], c :: cs)

/-- Nothing but a sign and digits. -/
def readInteger? (s : String) : Option Int :=
  let (negative, cs) := takeSign (withoutPadding s.toList)
  match takeDigits false cs with
  | (d :: ds, []) => some (signed negative (ofDigits 10 (d :: ds)))
  | _ => none

/-- The most digits that an integer in an option or in the environment may have. -/
def digitLimit : Nat := 4300

/--
How many digits there are, if they are too many. They are counted before anything looks at what
comes after them, unless it is an underscore.
-/
def overlong? (s : String) : Option Nat :=
  let (ds, rest) := takeDigits false (takeSign (withoutPadding s.toList)).2
  if digitLimit < ds.length ∧ rest.head? ≠ some '_' then some ds.length else none

/-- `n * 10 ^ e` as the nearest float. Powers out of reach are not worked out. -/
def scaled (n : Nat) (e : Int) : Float :=
  let size := (Nat.toDigits 10 n).length + e
  if n = 0 ∨ size < -330 then 0.0
  else if 320 < size then infinity
  else if 0 ≤ e then Float.ofScientific n false e.toNat
  else Float.ofScientific n true (-e).toNat

/-- The power of ten after an `e`. Nothing at all is the power zero. -/
def readExponent? : List Char → Option Int
  | [] => some 0
  | c :: cs =>
    if c = 'e' ∨ c = 'E' then
      let (negative, rest) := takeSign cs
      match takeDigits false rest with
      | (d :: ds, []) => some (signed negative (ofDigits 10 (d :: ds)))
      | _ => none
    else none

/-- The digits after the point, and the rest. -/
def takeFraction : List Char → List Nat × List Char
  | '.' :: cs => takeDigits false cs
  | cs => ([], cs)

def readUnsigned? (cs : List Char) : Option Float :=
  let word := cs.map Char.toLower
  if word = "inf".toList ∨ word = "infinity".toList then some infinity
  else if word = "nan".toList then some notANumber
  else
    let (whole, rest) := takeDigits false cs
    let (fraction, rest) := takeFraction rest
    if whole.isEmpty && fraction.isEmpty then none
    else (readExponent? rest).map fun e =>
      scaled (ofDigits 10 (whole ++ fraction)) (e - fraction.length)

def readFloat? (s : String) : Option Float :=
  let (negative, cs) := takeSign (withoutPadding s.toList)
  (readUnsigned? cs).map fun x => if negative then -x else x

end Calculator.Number
