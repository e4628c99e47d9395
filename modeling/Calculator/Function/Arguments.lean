import Calculator.Failure

/-!
# Parameters and arguments

Arguments are bound to parameters from left to right. The last parameter may be plural and takes all
that is left.
-/

namespace Calculator

structure Parameter where
  name : String
  expected : Expected := .any
  optional : Bool := false
  plural : Bool := false
  deriving DecidableEq, Repr

/-- How a signature shows it. -/
def Parameter.text (parameter : Parameter) : String :=
  let name := parameter.name
  let names := if parameter.plural then s!"{name}1, {name}2" else name
  if parameter.optional then s!"[{names}]" else names

structure Arguments where
  /-- What each parameter has got. -/
  slots : List (String × List Value)
  /-- Everything, in the order in which it came. -/
  ordered : List Value

namespace Arguments

/-- Makes sure that there is a slot with the name. -/
def openSlot (slots : List (String × List Value)) (name : String) : List (String × List Value) :=
  if (slots.lookup name).isSome then slots else slots ++ [(name, [])]

def addTo (name : String) (value : Value) :
    List (String × List Value) → List (String × List Value)
  | [] => [(name, [value])]
  | slot :: slots =>
    if slot.1 = name then (name, slot.2 ++ [value]) :: slots else slot :: addTo name value slots

def bind (arguments : Arguments) (name : String) (value : Value) : Arguments :=
  ⟨addTo name value arguments.slots, arguments.ordered ++ [value]⟩

/-- All that a parameter has got. -/
def all (arguments : Arguments) (name : String) : List Value :=
  (arguments.slots.lookup name).getD []

def first? (arguments : Arguments) (name : String) : Option Value := (arguments.all name).head?

def firstOr (arguments : Arguments) (name : String) (absent : Value) : Value :=
  (arguments.first? name).getD absent

/-- A parameter that is not optional has got something, if it is not bound past an optional one. -/
def required (arguments : Arguments) (name : String) : Attempt Value :=
  match arguments.first? name with
  | some value => .ok value
  | none => .error (.error (.internal s!"missing required argument '{name}'") none)

end Arguments

/-- The name of a function and its parameters. -/
structure Signature where
  name : String
  parameters : List Parameter
  deriving Repr

namespace Signature

def text (signature : Signature) : String :=
  let parameters := String.intercalate ", " (signature.parameters.map Parameter.text)
  s!"{signature.name}({parameters})"

/-- Only the last parameter can be plural. -/
def isAmbiguous (signature : Signature) : Bool :=
  signature.parameters.dropLast.any (·.plural)

def isPlural (signature : Signature) : Bool := signature.parameters.any (·.plural)

def least (signature : Signature) : Nat := signature.parameters.countP (!·.optional)

def most? (signature : Signature) : Option Nat :=
  if signature.isPlural then none else some signature.parameters.length

def takes (signature : Signature) (count : Nat) : Bool :=
  signature.least ≤ count && signature.most?.all (count ≤ ·)

/-- The last parameter stays when there are more arguments. -/
def parameter? (signature : Signature) (i : Nat) : Option Parameter :=
  signature.parameters[min i (signature.parameters.length - 1)]?

def bindFrom (site : Site) (signature : Signature) (i : Nat) (arguments : Arguments) :
    List Value → Attempt Arguments
  | [] => .ok arguments
  | value :: values =>
    match signature.parameter? i with
    | none => .ok arguments
    | some parameter =>
      if parameter.expected.admits value then
        bindFrom site signature (i + 1) (arguments.bind parameter.name value) values
      else Attempt.fail site (.argumentType (i + 1) parameter.expected signature.text)

def bind (site : Site) (signature : Signature) (values : List Value) : Attempt Arguments :=
  if signature.isAmbiguous then Attempt.fail site (.ambiguousDefinition signature.text)
  else if !signature.takes values.length then
    Attempt.fail site (.argumentCount signature.least signature.most? signature.text)
  else
    let slots := signature.parameters.foldl (fun slots p => Arguments.openSlot slots p.name) []
    signature.bindFrom site 0 ⟨slots, []⟩ values

end Signature

/-- All that a function gets to see of a call. -/
structure Call where
  site : Site
  signature : Signature
  arguments : Arguments

namespace Call

def fail {α : Type} (call : Call) (cause : Cause) : Attempt α := Attempt.fail call.site cause

def required (call : Call) (name : String) : Attempt Value := call.arguments.required name

def all (call : Call) (name : String) : List Value := call.arguments.all name

def first? (call : Call) (name : String) : Option Value := call.arguments.first? name

def firstOr (call : Call) (name : String) (absent : Value) : Value :=
  call.arguments.firstOr name absent

/-- An argument lies outside of what the function takes. -/
def outOfRange {α : Type} (call : Call) (position : Nat) : Attempt α :=
  call.fail (.argumentRange position call.signature.text)

end Call

end Calculator
