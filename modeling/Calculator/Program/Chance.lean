/-!
# Chance

Numbers that look as if drawn at random, one for each place in a row that a seed begins.
-/

namespace Calculator.Chance

/-- Mixes the bits of a number so that near numbers go far apart. -/
def mix (x : UInt64) : UInt64 :=
  let x := (x ^^^ (x >>> 30)) * 0xbf58476d1ce4e5b9
  let x := (x ^^^ (x >>> 27)) * 0x94d049bb133111eb
  x ^^^ (x >>> 31)

def drawn (seed : UInt64) (i : Nat) : Nat :=
  (mix (seed + UInt64.ofNat (i + 1) * 0x9e3779b97f4a7c15)).toNat

end Calculator.Chance
