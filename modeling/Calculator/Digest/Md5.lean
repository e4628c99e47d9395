import Calculator.Digest.Padding

/-! # MD5 -/

namespace Calculator.Digest.Md5

open Calculator.Digest

/-- The first bits of the sines of one, two, three and so on. -/
def roundConstants : Array UInt32 :=
  #[0xd76aa478, 0xe8c7b756, 0x242070db, 0xc1bdceee, 0xf57c0faf, 0x4787c62a, 0xa8304613,
    0xfd469501, 0x698098d8, 0x8b44f7af, 0xffff5bb1, 0x895cd7be, 0x6b901122, 0xfd987193,
    0xa679438e, 0x49b40821, 0xf61e2562, 0xc040b340, 0x265e5a51, 0xe9b6c7aa, 0xd62f105d,
    0x02441453, 0xd8a1e681, 0xe7d3fbc8, 0x21e1cde6, 0xc33707d6, 0xf4d50d87, 0x455a14ed,
    0xa9e3e905, 0xfcefa3f8, 0x676f02d9, 0x8d2a4c8a, 0xfffa3942, 0x8771f681, 0x6d9d6122,
    0xfde5380c, 0xa4beea44, 0x4bdecfa9, 0xf6bb4b60, 0xbebfbc70, 0x289b7ec6, 0xeaa127fa,
    0xd4ef3085, 0x04881d05, 0xd9d4d039, 0xe6db99e5, 0x1fa27cf8, 0xc4ac5665, 0xf4292244,
    0x432aff97, 0xab9423a7, 0xfc93a039, 0x655b59c3, 0x8f0ccc92, 0xffeff47d, 0x85845dd1,
    0x6fa87e4f, 0xfe2ce6e0, 0xa3014314, 0x4e0811a1, 0xf7537e82, 0xbd3af235, 0x2ad7d2bb,
    0xeb86d391]

structure State where
  (a b c d : UInt32)

def State.initial : State := ⟨0x67452301, 0xefcdab89, 0x98badcfe, 0x10325476⟩

def State.add (s t : State) : State := ⟨s.a + t.a, s.b + t.b, s.c + t.c, s.d + t.d⟩

/-- What the step mixes in, the word that it takes, and how far it rotates. -/
def plan (s : State) (i : Nat) : UInt32 × Nat × List UInt32 :=
  if i < 16 then ((s.b &&& s.c) ||| (~~~s.b &&& s.d), i, [7, 12, 17, 22])
  else if i < 32 then ((s.d &&& s.b) ||| (~~~s.d &&& s.c), (5 * i + 1) % 16, [5, 9, 14, 20])
  else if i < 48 then (s.b ^^^ s.c ^^^ s.d, (3 * i + 5) % 16, [4, 11, 16, 23])
  else (s.c ^^^ (s.b ||| ~~~s.d), (7 * i) % 16, [6, 10, 15, 21])

def step (words : Array UInt32) (s : State) (i : Nat) : State :=
  let (mix, index, rotations) := plan s i
  let sum := mix + s.a + roundConstants.getD i 0 + words.getD index 0
  ⟨s.d, s.b + rotateLeft sum (rotations.getD (i % 4) 0), s.b, s.c⟩

/-- The lowest byte of a word comes first. -/
def words (block : List UInt8) : Array UInt32 :=
  ((pieces 4 16 block).map fun bytes => word bytes.reverse).toArray

def compress (state : State) (block : List UInt8) : State :=
  state.add ((List.range 64).foldl (step (words block)) state)

def digest (message : List UInt8) : List UInt8 :=
  let padded := filled message ++ lowBytes 8 (bitLength message)
  let s := (pieces 64 padded.length padded).foldl compress State.initial
  [s.a, s.b, s.c, s.d].flatMap fun w => lowBytes 4 w.toNat

end Calculator.Digest.Md5
