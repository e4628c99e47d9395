/-! # Faults -/

namespace Calculator

/--
What stops the program itself. No script is meant to cause one, and none carries a place in the
source.
-/
inductive Fault where
  /-- An infinite number has no whole part. -/
  | wholeOfInfinite
  /-- What is not a number has no whole part. -/
  | wholeOfNaN
  /-- The integer is larger than every float. -/
  | beyondFloat
  /-- A unit so small that it is zero as a float. -/
  | vanishedUnit
  /-- A host dictionary takes no lists or dictionaries as keys. -/
  | compoundKey
  /-- A digit that stands in no decimal place. -/
  | looseDigit
  /-- A number has more digits than are read. -/
  | tooManyDigits
  /-- More rounds than a pattern may ask for. -/
  | tooManyRounds
  /-- The operating system refuses to look at the path. -/
  | pathTooLong
  /-- A path cannot hold the null character. -/
  | nullInPath
  /-- A file that nobody has looked at yet. -/
  | unread (path : String)
  /-- Foreign code stops with something that is no error of a script. -/
  | foreign (what : String)
  deriving DecidableEq, Repr

namespace Fault

def message : Fault → String
  | wholeOfInfinite => "an infinite number has no whole part"
  | wholeOfNaN => "what is not a number has no whole part"
  | beyondFloat => "an integer is too large for a float"
  | vanishedUnit => "the unit to round to is zero"
  | compoundKey => "an array or object cannot be a key"
  | looseDigit => "a digit stands in no decimal place"
  | tooManyDigits => "a number has too many digits"
  | tooManyRounds => "a pattern asks for too many rounds"
  | pathTooLong => "a path is too long"
  | nullInPath => "a path holds a null character"
  | unread path => s!"the file {path} has not been read"
  | foreign what => s!"foreign code stops with {what}"

end Fault

end Calculator
