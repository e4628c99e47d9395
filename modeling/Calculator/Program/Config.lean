import Calculator.Number.Notation
import Calculator.Number.Reading
import Calculator.Text.Quoted

/-!
# Limits

How deep calls may go and how long extensions may take. Environment variables can change both.
-/

namespace Calculator

structure Config where
  maxDepth : Int := 50
  /-- In seconds. -/
  timeLimit : Option Float := some 5.0

/-- The environment variables that are there. -/
abbrev Environment := List (String × String)

namespace Config

/-- Long texts are cut off, here after so many characters. -/
def shownLength : Nat := 200

def notAnInteger (s : String) : String :=
  "invalid literal for int() with base 10: " ++
    String.ofList ((Text.quoted s).toList.take shownLength)

def tooManyDigits (count : Nat) : String :=
  "Exceeds the limit (" ++ toString Number.digitLimit ++
    " digits) for integer string conversion: value has " ++ toString count ++
    " digits; use sys.set_int_max_str_digits() to increase the limit"

def notAFloat (s : String) : String := "could not convert string to float: " ++ Text.quoted s

def withMaxDepth (config : Config) (depth : Int) : Except String Config :=
  if depth < 1 then .error "max_depth must be at least 1"
  else .ok { config with maxDepth := depth }

def withTimeLimit (config : Config) (limit : Option Float) : Except String Config :=
  if limit.any (· ≤ 0.0) then .error "extension_timeout must be positive"
  else .ok { config with timeLimit := limit }

def readMaxDepth (config : Config) (s : String) : Except String Config :=
  match Number.overlong? s with
  | some count => .error (tooManyDigits count)
  | none =>
    match Number.readInteger? s with
    | some depth => config.withMaxDepth depth
    | none => .error (notAnInteger s)

/-- An empty text means no limit. -/
def readTimeLimit (config : Config) (s : String) : Except String Config :=
  if s = "" then config.withTimeLimit none
  else
    match Number.readFloat? s with
    | some limit => config.withTimeLimit (some limit)
    | none => .error (notAFloat s)

def ofEnvironment (environment : Environment) : Except String Config := do
  let config ← match environment.lookup "DECOCALC_MAX_DEPTH" with
    | some s => readMaxDepth {} s
    | none => .ok {}
  match environment.lookup "DECOCALC_EXTENSION_TIMEOUT" with
  | some s => config.readTimeLimit s
  | none => .ok config

end Config

end Calculator
