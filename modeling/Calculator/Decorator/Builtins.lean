import Calculator.Decorator.Moment
import Calculator.Decorator.Table
import Calculator.Value.Conversion

/-! # The decorators that are always there -/

namespace Calculator

open Number

namespace Builtin

/-- An integer that a value stands for. -/
def wholeOf (site : Site) (value : Value) : Attempt Int :=
  match value.integer? with
  | some n => .ok n
  | none => Attempt.fail site (.valueType .number)

/-- A float that a value stands for. -/
def floatOf (site : Site) (value : Value) : Attempt Float := do
  match ← Attempt.ofFault value.float? with
  | some x => return x
  | none => Attempt.fail site (.valueType .number)

def writeDefault : Value → String
  | .name _ => ""
  | value => value.text

/-- Negative numbers are written as the bits that they are. -/
def writeBits (start : String) (base : Nat) (site : Site) (value : Value) : Attempt String := do
  return start ++ inBase base (wordOf (← wholeOf site value))

def writeMoment (site : Site) (value : Value) : Attempt String := do
  let n ← wholeOf site value
  match Moment.text? n with
  | some s => return s
  | none => Attempt.fail site (.range (toString n))

def writeMoney (symbol : String) (site : Site) (value : Value) : Attempt String := do
  return symbol ++ money (← floatOf site value)

def writePercentage (site : Site) (value : Value) : Attempt String := do
  return display ((← floatOf site value) * 100.0) ++ "%"

/-- The teens of every hundred have one ending. -/
def ordinalEnding (n : Nat) : String :=
  if 11 ≤ n % 100 ∧ n % 100 ≤ 13 then "th"
  else
    match n % 10 with
    | 1 => "st"
    | 2 => "nd"
    | 3 => "rd"
    | _ => "th"

def writeOrdinal (site : Site) (value : Value) : Attempt String := do
  let n ← wholeOf site value
  return toString n ++ ordinalEnding n.natAbs

def romanNumerals : List (Nat × String) :=
  [(1000, "M"), (900, "CM"), (500, "D"), (400, "CD"), (100, "C"), (90, "XC"), (50, "L"),
    (40, "XL"), (10, "X"), (9, "IX"), (5, "V"), (4, "IV"), (1, "I")]

/-- Each numeral as often as it fits into what is left. -/
def roman : List (Nat × String) → Nat → String
  | [], _ => ""
  | (amount, numeral) :: others, n =>
    String.join (List.replicate (n / amount) numeral) ++ roman others (n % amount)

def writeRoman (site : Site) (value : Value) : Attempt String := do
  let n ← wholeOf site value
  if 3999 < n then Attempt.fail site .overflow
  else if n < 1 then Attempt.fail site (.range (toString n))
  else return roman romanNumerals n.toNat

/-- A decorator of numbers. -/
def numeric (names : List String) (description : String)
    (render : Site → Value → Attempt String) : Decorator :=
  ⟨names, description, .number, true, render⟩

/-- A decorator of any value. -/
def general (names : List String) (description : String) (render : Value → String) : Decorator :=
  ⟨names, description, .any, true, fun _ value => .ok (render value)⟩

def decorators : List Decorator :=
  [⟨["default"], "Default formatter, type dependent", .any, false,
      fun _ value => .ok (writeDefault value)⟩,
    numeric ["hex"] "Base 16 number formatting, such as 0xFF" (writeBits "0x" 16),
    numeric ["oct"] "Base 8 number formatting, such as 0o77" (writeBits "0o" 8),
    numeric ["bin"] "Base 2 number formatting, such as 0b11" (writeBits "0b" 2),
    numeric ["sci"] "Scientific number formatting, such as 1.2e-5"
      fun site value => do return scientific (← floatOf site value),
    ⟨["utc"], "Interprets an integer as a timestamp, and formats it in UTC standard", .int, true,
      writeMoment⟩,
    numeric ["dollar", "dollars", "usd", "aud", "cad"] "Format a number as a dollar amount"
      (writeMoney "$"),
    numeric ["euro", "euros"] "Format a number as a euro amount" (writeMoney "€"),
    numeric ["pound", "pounds"] "Format a number as a pound amount" (writeMoney "£"),
    numeric ["yen"] "Format a number as a yen amount" (writeMoney "¥"),
    numeric ["float"] "Format a number as floating point"
      fun site value => do return Value.floatText (← floatOf site value),
    numeric ["int", "integer"] "Format a number as an integer"
      fun site value => do return toString (← wholeOf site value),
    general ["bool", "boolean"] "Format a value as a boolean"
      fun value => Value.boolText value.truth,
    general ["array"] "Format a value as an array" fun value => Value.text (.array value.items),
    general ["object"] "Format a value as an object"
      fun value => Value.text (.object value.entries),
    numeric ["percentage", "percent"] "Format a floating point number as a percentage"
      writePercentage,
    numeric ["ordinal"] "Format an integer as an ordinal (1st, 22nd, etc)" writeOrdinal,
    numeric ["roman"] "Format an integer as a roman numeral" writeRoman]

end Builtin

def DecoratorTable.builtin : DecoratorTable := .ofList Builtin.decorators

end Calculator
