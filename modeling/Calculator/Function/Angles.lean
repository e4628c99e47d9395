import Calculator.Function.Math

/-! # Functions of angles -/

namespace Calculator.Builtin

open Number

def pi : Float := 3.141592653589793

/-- A result that is too large is positive infinity on both sides. -/
def hyperbolicSine (x : Float) : Float :=
  let y := Float.sinh x
  if y.isInf && x.isFinite then infinity else y

def angleFunction (name : String) (f : Float → Float) (description : String) : Function :=
  ⟨⟨name, [.number "n"]⟩, description, some "trigonometry", .compute (floatFunction f)⟩

def angleFunctions : List Function :=
  [angleFunction "sin" Float.sin "Calculate the sine of n",
    angleFunction "cos" Float.cos "Calculate the cosine of n",
    angleFunction "tan" Float.tan "Calculate the tangent of n",
    angleFunction "asin" Float.asin "Calculate the arcsine of n",
    angleFunction "acos" Float.acos "Calculate the arccosine of n",
    angleFunction "atan" Float.atan "Calculate the arctangent of n",
    angleFunction "sinh" hyperbolicSine "Calculate the hyperbolic sine of n",
    angleFunction "cosh" Float.cosh "Calculate the hyperbolic cosine of n",
    angleFunction "tanh" Float.tanh "Calculate the hyperbolic tangent of n",
    angleFunction "to_radians" (· * (pi / 180.0)) "Convert the given degree value into radians",
    angleFunction "to_degrees" (· * (180.0 / pi)) "Convert the given radian value into degrees"]

end Calculator.Builtin
