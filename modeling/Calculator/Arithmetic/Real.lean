import Calculator.Number.Exact

/-! # Float arithmetic -/

namespace Calculator.Arithmetic

open Calculator.Number

/-- Takes the sign of nothing: a negative remainder goes up by the size of the divisor. -/
def remainderFloats (x y : Float) : Float :=
  if y == 0.0 then notANumber
  else
    let r := truncatedRemainder x y
    if r < 0.0 then r + y.abs else r

/-- Zero to a negative power is positive infinity, whatever the sign of the zero. -/
def powerFloats (x y : Float) : Float := if x == 0.0 && y < 0.0 then infinity else Float.pow x y

end Calculator.Arithmetic
