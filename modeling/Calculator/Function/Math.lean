import Calculator.Function.Mapping

/-! # Mathematical functions -/

namespace Calculator.Builtin

open Number

def math (name : String) (parameters : List Parameter) (description : String)
    (f : Call → Attempt Value) : Function :=
  ⟨⟨name, parameters⟩, description, some "math", .compute f⟩

/-! ## Conversion -/

def toBool (call : Call) : Attempt Value := do return .bool (← call.required "input").truth

def toArray (call : Call) : Attempt Value := do return .array (← call.required "input").items

def toInt (call : Call) : Attempt Value := do
  let value ← call.required "input"
  match value.integer? with
  | some n => return .int n
  | none => call.fail (.unreadable value.text Expected.int.text)

def toFloatValue (call : Call) : Attempt Value := do
  let value ← call.required "input"
  match ← Attempt.ofFault value.float? with
  | some x => return .float x
  | none => call.fail (.unreadable value.text Expected.float.text)

/-! ## The smallest and the largest -/

mutual

/-- The scalars inside of a value. -/
def scalars : Value → List Value
  | .array items => scalarsIn items
  | .object entries => scalarsAmong entries
  | value => [value]

def scalarsIn : List Value → List Value
  | [] => []
  | item :: items => scalars item ++ scalarsIn items

def scalarsAmong : Entries → List Value
  | [] => []
  | (_, value) :: entries => scalars value ++ scalarsAmong entries

end

def isNaN : Value → Bool
  | .float x => x.isNaN
  | _ => false

/-- The exact number that a scalar is. -/
def exactly : Value → Exact
  | .int n => .ofInt n
  | .float x => exact x
  | _ => .nan

/-- Of equal numbers the first one wins. -/
def pick (better : Value → Value → Bool) (first : Value) (others : List Value) : Value :=
  others.foldl (fun best value => if better value best then value else best) first

/-- What is not a number at all is left out, and no numbers give none. -/
def extreme (better : Value → Value → Bool) (call : Call) : Attempt Value :=
  let numbers := (scalarsIn (call.all "n")).filter (!isNaN ·)
  if !numbers.all (·.isNumeric) then call.fail (.valueType .number)
  else
    match numbers with
    | [] => .ok (.float notANumber)
    | first :: others => .ok (pick better first others)

def least : Call → Attempt Value := extreme fun a b => (exactly a).less (exactly b)

def largest : Call → Attempt Value := extreme fun a b => (exactly b).less (exactly a)

/-! ## Rounding -/

/-- A float becomes an integer, which must be in range. -/
def toWhole (call : Call) (whole : Float → Except Fault Int) : Attempt Value := do
  mapNumbers call.site
    (fun
      | .float x => do
        let n ← Attempt.ofFault (whole x)
        if inRange n then return .int n else call.fail .overflow
      | value => return value)
    (← call.required "n")

/-- Beyond these powers of ten, either nothing or everything is rounded away. -/
def roundingLimit : Int := 300

def largestPrecision : Int := 0xFFFFFFFF

/-- A float that cannot be scaled up stays as it is. -/
def roundFloat (precision : Int) (x : Float) : Except Fault Float :=
  if !x.isFinite || roundingLimit < precision then .ok x
  else if precision < -roundingLimit then .ok 0.0
  else
    let scale := Float.pow 10.0 (Float.ofInt precision)
    if (x * scale).isInf then .ok x
    else do return (← roundHalfAway (x * scale)) / scale

def round (call : Call) : Attempt Value := do
  match (call.firstOr "precision" (.int 0)).integer? with
  | some precision =>
    if largestPrecision < precision then call.outOfRange 2
    else
      mapNumbers call.site
        (fun value => do
          let x ← asFloat call.site value
          return .float (← Attempt.ofFault (roundFloat precision x)))
        (← call.required "n")
  | none => call.outOfRange 2

def absolute (call : Call) : Attempt Value := do
  mapNumbers call.site
    (fun
      | .int n => if n = intMin then call.fail .overflow else return .int n.natAbs
      | .float x => return .float x.abs
      | value => return value)
    (← call.required "n")

/-! ## Logarithms and roots -/

def floatFunction (f : Float → Float) (call : Call) : Attempt Value := do
  mapFloats call.site f (← call.required "n")

/-- The second argument, which is one number. -/
def base (call : Call) : Attempt Float := do
  let value ← call.required "base"
  if value.isCompound then call.fail (.valueType .number) else asFloat call.site value

/-- To the base one there is only an infinite answer. -/
def logarithm (base x : Float) : Float :=
  if x == 0.0 then -infinity
  else if x < 0.0 || base ≤ 0.0 then notANumber
  else if base == 1.0 then infinity
  else Float.log x / Float.log base

/-- A root that is too large is infinite, and one of zero to a negative base negative infinite. -/
def root (base x : Float) : Float :=
  if base == 0.0 then infinity
  else
    let power := 1.0 / base
    let y := Float.pow x power
    if x == 0.0 && power < 0.0 && power.isFinite then -infinity
    else if y.isInf && x.isFinite && power.isFinite then infinity
    else y

def mathFunctions : List Function :=
  [math "bool" [.anything "input"] "Returns a value as a boolean" toBool,
    math "array" [.anything "input"] "Returns a value as an array" toArray,
    math "int" [.anything "input"] "Returns a value as an integer" toInt,
    math "float" [.anything "input"] "Returns a value as a float" toFloatValue,
    math "min" [{ Parameter.number "n" with plural := true }]
      "Returns the smallest numeric value from the supplied arguments" least,
    math "max" [{ Parameter.number "n" with plural := true }]
      "Returns the largest numeric value from the supplied arguments" largest,
    math "ceil" [.number "n"] "Returns the nearest whole integer larger than n"
      fun call => toWhole call ceiling,
    math "floor" [.number "n"] "Returns the nearest whole integer smaller than n"
      fun call => toWhole call floor,
    math "round" [.number "n", ⟨"precision", .int, true, false⟩]
      "Rounds n to the nearest integer, or to [precision] decimal places" round,
    math "abs" [.number "n"] "Returns the absolute value of n" absolute,
    math "log10" [.number "n"] "Returns the base 10 logarithm of n" (floatFunction Float.log10),
    math "ln" [.number "n"] "Returns the natural logarithm of n" (floatFunction Float.log),
    math "log" [.number "n", .number "base"] "Returns the logarithm of n in any base"
      fun call => do floatFunction (logarithm (← base call)) call,
    math "sqrt" [.number "n"] "Returns the square root of n" (floatFunction Float.sqrt),
    math "root" [.number "n", .number "base"] "Returns a root of n of any base"
      fun call => do floatFunction (root (← base call)) call]

end Calculator.Builtin
