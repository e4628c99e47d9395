import Calculator.Evaluation.Memory
import Calculator.Grammar.Terminal

/-!
# What the nodes of a tree come to

Most nodes come to a value. The others are marks and parts that the node above needs. A currency
symbol anywhere below gives a node its format.
-/

namespace Calculator

/-- How a line is written if nobody says how. -/
inductive Format where
  | default | dollars | euros | pounds | yen
  deriving DecidableEq, Repr

namespace Format

def name : Format → String
  | default => "DEFAULT"
  | dollars => "DOLLARS"
  | euros => "EUROS"
  | pounds => "POUNDS"
  | yen => "YEN"

/-- The decorator that writes it. -/
def decorator : Format → String
  | default => "default"
  | dollars => "dollars"
  | euros => "euros"
  | pounds => "pounds"
  | yen => "yen"

def ofSymbol : String → Format
  | "$" => dollars
  | "€" => euros
  | "£" => pounds
  | "¥" => yen
  | _ => default

end Format

open Grammar

inductive Meaning where
  /-- A token that stands for itself. -/
  | mark (kind : Terminal) (text : String)
  | value (v : Value)
  /-- Several values with commas between them. -/
  | values (vs : List Value)
  | entry (key value : Value)
  /-- The place in a variable that an assignment goes to. -/
  | target (index : Value)
  | decorator (name : String)

structure Outcome where
  meaning : Meaning
  format : Format

namespace Outcome

def ofValue (value : Value) : Outcome := ⟨.value value, .default⟩

/-- The name that the outcome is, if it is no more than a name. -/
def name? (outcome : Outcome) : Option String :=
  match outcome.meaning with
  | .value v => v.name?
  | _ => none

/-- The first currency among them. -/
def formatOf (outcomes : List Outcome) : Format :=
  ((outcomes.map (·.format)).find? (· ≠ .default)).getD .default

end Outcome

end Calculator
