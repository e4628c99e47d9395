import Calculator.Text.Bytes

/-!
# Messages in blocks

A message is filled up with a one bit and zeros so that, with its length in the last eight bytes, it
makes whole blocks of sixty-four bytes.
-/

namespace Calculator.Digest

/-- The `count` lowest bytes of a number, the lowest one first. -/
def lowBytes : Nat → Nat → List UInt8
  | 0, _ => []
  | count + 1, n => UInt8.ofNat n :: lowBytes count (n / 256)

def fillerSize (size : Nat) : Nat := (119 - size % 64) % 64

/-- The message with everything up to its length. -/
def filled (message : List UInt8) : List UInt8 :=
  message ++ 0x80 :: List.replicate (fillerSize message.length) 0

/-- How many bits the message has. -/
def bitLength (message : List UInt8) : Nat := 8 * message.length

def word (bytes : List UInt8) : UInt32 := bytes.foldl (fun w b => w * 256 + b.toUInt32) 0

/-- Pieces of `size` each, or less for the last one. -/
def pieces {α : Type} (size : Nat) : Nat → List α → List (List α)
  | 0, _ | _, [] => []
  | count + 1, xs => xs.take size :: pieces size count (xs.drop size)

def rotateLeft (x : UInt32) (places : UInt32) : UInt32 := (x <<< places) ||| (x >>> (32 - places))

def rotateRight (x : UInt32) (places : UInt32) : UInt32 := (x >>> places) ||| (x <<< (32 - places))

def hexText (bytes : List UInt8) : String := String.ofList (bytes.flatMap Text.upperHex)

end Calculator.Digest
