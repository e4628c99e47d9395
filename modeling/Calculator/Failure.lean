import Calculator.Fault
import Calculator.Site
import Calculator.Value.Expected
import Calculator.Value.Rendering

/-!
# Errors of a script

A cause says what went wrong, and `Cause.message` says it in words. A failure adds where.
-/

namespace Calculator

/-- A bracket, quote or the like that the source leaves open or puts where it cannot stand. -/
inductive Slip where
  | openLiteral
  | openLine
  | openArray
  | openObject
  | openParen
  | strayDecorator
  | strayPostfix
  deriving DecidableEq, Repr

inductive Cause where
  | slip (slip : Slip)
  /-- The text is no script. -/
  | grammar (complaint : String)
  | valueType (expected : Expected)
  | unreadable (text kind : String)
  | range (text : String)
  | overflow
  | underflow
  | constant (name : String)
  | unknownVariable (name : String)
  | noSuchKey (key : Value)
  | emptyArray
  | lengthMismatch
  | unknownFunction (name : String)
  | unknownDecorator (name : String)
  /-- A count of arguments that the function does not take. -/
  | argumentCount (least : Nat) (most : Option Nat) (signature : String)
  | argumentType (position : Nat) (expected : Expected) (signature : String)
  | argumentRange (position : Nat) (signature : String)
  | ambiguousDefinition (signature : String)
  | tooDeep
  | file (complaint : String)
  /-- An extension fails. -/
  | extension (complaint : String)
  /-- The program contradicts itself. -/
  | internal (complaint : String)

namespace Slip

def kind : Slip → String
  | openLiteral => "UnterminatedLiteral"
  | openLine => "UnterminatedLinebreak"
  | openArray => "UnterminatedArray"
  | openObject => "UnterminatedObject"
  | openParen => "UnterminatedParen"
  | strayDecorator => "UnexpectedDecorator"
  | strayPostfix => "UnexpectedPostfix"

def message : Slip → String
  | openLiteral => "unterminated string literal"
  | openLine => "line continuation at end of input"
  | openArray => "unterminated array, missing ']'"
  | openObject => "unterminated object, missing '\x7d'"
  | openParen => "unterminated parentheses, missing ')'"
  | strayDecorator => "decorators may only appear at the end of a line"
  | strayPostfix => "postfix operator without an operand"

end Slip

namespace Cause

def kind : Cause → String
  | slip s => s.kind
  | grammar _ => "Pest"
  | valueType _ => "ValueType"
  | unreadable .. => "ValueParsing"
  | range _ => "Range"
  | overflow => "Overflow"
  | underflow => "Underflow"
  | constant _ => "ConstantValue"
  | unknownVariable _ => "VariableName"
  | noSuchKey _ => "Index"
  | emptyArray => "ArrayEmpty"
  | lengthMismatch => "ArrayLengths"
  | unknownFunction _ => "FunctionName"
  | unknownDecorator _ => "DecoratorName"
  | argumentCount .. => "FunctionArguments"
  | argumentType .. => "FunctionArgumentType"
  | argumentRange .. => "FunctionArgumentOverflow"
  | ambiguousDefinition _ => "AmbiguousFunctionDefinition"
  | tooDeep => "StackOverflow"
  | file _ => "Io"
  | extension _ => "Script"
  | internal _ => "Internal"

/-- How many arguments a function takes. -/
def countText (least : Nat) : Option Nat → String
  | none => s!"at least {least}"
  | some most => if least = most then toString least else s!"{least} to {most}"

def message : Cause → String
  | slip s => s.message
  | grammar complaint | file complaint | extension complaint | internal complaint => complaint
  | valueType expected => s!"invalid type for value, expected {expected.text}"
  | unreadable text kind => s!"could not parse '{text}' as {kind}"
  | range text => s!"value out of range: {text}"
  | overflow => "arithmetic overflow"
  | underflow => "arithmetic underflow"
  | constant name => s!"cannot assign to constant '{name}'"
  | unknownVariable name => s!"uninitialized variable '{name}' referenced"
  | noSuchKey key => s!"key or index {key.text} is out of range"
  | emptyArray => "array is empty"
  | lengthMismatch => "array lengths do not match"
  | unknownFunction name => s!"undefined function '{name}'"
  | unknownDecorator name => s!"undefined decorator '@{name}'"
  | argumentCount least most signature =>
    s!"{signature} expects {countText least most} argument(s)"
  | argumentType position expected signature =>
    s!"argument {position} of {signature} must be {expected.text}"
  | argumentRange position signature => s!"argument {position} of {signature} is out of range"
  | ambiguousDefinition signature => s!"{signature} has an ambiguous plural argument"
  | tooDeep => "function recursion limit reached"

end Cause

/-- Why an evaluation stops. -/
inductive Failure where
  | error (cause : Cause) (site : Option Site)
  | fault (fault : Fault)

namespace Failure

/-- An error at a place in the source. -/
def located (site : Site) (cause : Cause) : Failure := .error cause (some site)

/-- What an error says, and where it is. A fault says nothing. -/
def message : Failure → String
  | error cause (some site) => cause.message ++ site.label
  | error cause none => cause.message
  | fault _ => ""

end Failure

/-- A computation that may fail without touching any state. -/
abbrev Attempt := Except Failure

namespace Attempt

def fail {α : Type} (site : Site) (cause : Cause) : Attempt α := .error (.located site cause)

/-- A fault that nobody has caught stops the script too. -/
def ofFault {α : Type} : Except Fault α → Attempt α
  | .ok a => .ok a
  | .error fault => .error (.fault fault)

theorem bind_eq_ok {α β : Type} {attempt : Attempt α} {f : α → Attempt β} {b : β} :
    (attempt >>= f) = .ok b ↔ ∃ a, attempt = .ok a ∧ f a = .ok b := by
  cases attempt <;> simp [bind, Except.bind]

end Attempt

end Calculator
