import Calculator.Text.Bytes

/-!
# Base 64

Three bytes become four digits of six bits each. Equals signs fill up the last four.
-/

namespace Calculator.Text.Base64

open Calculator.Text

def digit (n : Nat) : Char :=
  if n < 26 then Char.ofNat (65 + n)
  else if n < 52 then Char.ofNat (71 + n)
  else if n < 62 then Char.ofNat (n - 4)
  else if n = 62 then '+'
  else '/'

def value? (c : Char) : Option Nat :=
  if 'A' ≤ c ∧ c ≤ 'Z' then some (c.toNat - 65)
  else if 'a' ≤ c ∧ c ≤ 'z' then some (c.toNat - 71)
  else if '0' ≤ c ∧ c ≤ '9' then some (c.toNat + 4)
  else if c = '+' then some 62
  else if c = '/' then some 63
  else none

def encodeBytes : List UInt8 → List Char
  | a :: b :: c :: bytes =>
    let n := (a.toNat * 256 + b.toNat) * 256 + c.toNat
    digit (n >>> 18) :: digit ((n >>> 12) % 64) :: digit ((n >>> 6) % 64) :: digit (n % 64) ::
      encodeBytes bytes
  | [a, b] =>
    let n := (a.toNat * 256 + b.toNat) * 4
    [digit (n >>> 12), digit ((n >>> 6) % 64), digit (n % 64), '=']
  | [a] =>
    let n := a.toNat * 16
    [digit (n >>> 6), digit (n % 64), '=', '=']
  | [] => []

def encode (s : String) : String := String.ofList (encodeBytes (toBytes s))

/-- Bits beyond the last whole byte do not count. One digit alone is too little for a byte. -/
def decodeDigits : List Nat → Option (List UInt8)
  | a :: b :: c :: d :: digits =>
    let n := ((a * 64 + b) * 64 + c) * 64 + d
    (decodeDigits digits).map fun bytes =>
      UInt8.ofNat (n >>> 16) :: UInt8.ofNat (n >>> 8) :: UInt8.ofNat n :: bytes
  | [a, b, c] =>
    let n := (a * 64 + b) * 64 + c
    some [UInt8.ofNat (n >>> 10), UInt8.ofNat (n >>> 2)]
  | [a, b] => some [UInt8.ofNat ((a * 64 + b) >>> 4)]
  | [_] => none
  | [] => some []

/-- How many equals signs may follow `n` digits. After whole groups, any number may. -/
def paddingFits (n signs : Nat) : Bool :=
  match n % 4 with
  | 0 => signs = 0 || 0 < n
  | 2 => signs = 2
  | 3 => signs = 1
  | _ => false

def decodeBytes? (cs : List Char) : Option (List UInt8) := do
  let digits := cs.takeWhile (· ≠ '=')
  let signs := cs.dropWhile (· ≠ '=')
  if signs.all (· = '=') && paddingFits digits.length signs.length then
    decodeDigits (← digits.mapM value?)
  else none

/-- Nothing unless the text is well formed and stands for a text. -/
def decode? (s : String) : Option String := do ofBytes? (← decodeBytes? s.toList)

end Calculator.Text.Base64
