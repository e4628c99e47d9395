import Calculator.Text.Bytes

/-!
# Percent encoding

Every byte that is not plain becomes a percent sign and two hexadecimal digits.
-/

namespace Calculator.Text.Percent

open Calculator.Text

/-- Bytes that stand for themselves: letters, digits and four marks. -/
def isPlain (byte : UInt8) : Bool :=
  let c := Char.ofNat byte.toNat
  c.isAlphanum || c = '_' || c = '.' || c = '-' || c = '~'

def encodeByte (byte : UInt8) : List Char :=
  if isPlain byte then [Char.ofNat byte.toNat] else '%' :: upperHex byte

def encode (s : String) : String := String.ofList ((toBytes s).flatMap encodeByte)

def hexValue? (c : Char) : Option Nat :=
  if '0' ≤ c ∧ c ≤ '9' then some (c.toNat - 48)
  else if 'a' ≤ c ∧ c ≤ 'f' then some (c.toNat - 87)
  else if 'A' ≤ c ∧ c ≤ 'F' then some (c.toNat - 55)
  else none

/-- A percent sign without two digits stands for itself. -/
def decodeRun : List Char → List UInt8
  | '%' :: a :: b :: cs =>
    match hexValue? a, hexValue? b with
    | some x, some y => UInt8.ofNat (x * 16 + y) :: decodeRun cs
    | _, _ => 0x25 :: decodeRun (a :: b :: cs)
  | c :: cs => UInt8.ofNat c.toNat :: decodeRun cs
  | [] => []
  termination_by cs => cs.length

def isAscii (c : Char) : Bool := c.toNat < 0x80

/-- Each run of ASCII characters must decode to whole characters by itself. -/
def decodeGroup? (run : List Char) : Option (List Char) :=
  if run.all isAscii then (ofBytes? (decodeRun run)).map String.toList else some run

def decode? (s : String) : Option String :=
  let runs := s.toList.splitBy fun a b => isAscii a == isAscii b
  (runs.mapM decodeGroup?).map fun groups => String.ofList groups.flatten

end Calculator.Text.Percent
