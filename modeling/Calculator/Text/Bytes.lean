/-! # Text as bytes -/

namespace Calculator.Text

def toBytes (s : String) : List UInt8 := s.toUTF8.data.toList

/-- Nothing unless the bytes are the UTF-8 form of a text. -/
def ofBytes? (bytes : List UInt8) : Option String := String.fromUTF8? ⟨bytes.toArray⟩

def upperHexDigit (n : Nat) : Char := Char.ofNat (if n < 10 then 48 + n else 55 + n)

def upperHex (byte : UInt8) : List Char :=
  [upperHexDigit (byte.toNat / 16), upperHexDigit (byte.toNat % 16)]

end Calculator.Text
