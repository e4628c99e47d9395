import Calculator.Evaluation.Outcome
import Calculator.Text.Case
import Calculator.Text.Escape
import Calculator.Value.Conversion

/-! # Literals and names -/

namespace Calculator.Evaluation

open Grammar Number

def integerLiteral (site : Site) : Attempt Value :=
  match readInteger? (removeCommas site.text) with
  | some n => if inRange n then .ok (.int n) else Attempt.fail site .overflow
  | none => Attempt.fail site (.internal "not an integer")

def floatLiteral (site : Site) : Attempt Value :=
  let digits := removeCommas site.text
  match readFloat? digits with
  | some x => .ok (.float x)
  | none => Attempt.fail site (.unreadable digits "float")

/-- Past the zero and the letter after it, if there is one. -/
def radixDigits : List Char → List Char
  | _ :: c :: cs => if c.isAlpha then cs else c :: cs
  | cs => cs.drop 1

/-- The number that hexadecimal digits stand for in a base up to sixteen. -/
def valueInBase (base : Nat) (cs : List Char) : Nat :=
  ofDigits base (cs.map fun c => if c.isDigit then c.toNat - 48 else c.toLower.toNat - 87)

/-- Sixty-four bits. The highest one is the sign. -/
def radixLiteral (base : Nat) (site : Site) : Attempt Value :=
  let n := valueInBase base (radixDigits site.text.toList)
  if wordSize ≤ n then Attempt.fail site .overflow
  else if intMax < n then .ok (.int (n - wordSize))
  else .ok (.int n)

def withoutQuotes (cs : List Char) : List Char := (cs.drop 1).dropLast

def stringLiteral (site : Site) : Value :=
  .string (String.ofList (Text.unescapeChars (withoutQuotes site.text.toList)))

/-- What a leaf comes to that is no name. -/
def literal (kind : Terminal) (site : Site) : Attempt Outcome :=
  match kind with
  | .int => Outcome.ofValue <$> integerLiteral site
  | .float | .sci => Outcome.ofValue <$> floatLiteral site
  | .hex => Outcome.ofValue <$> radixLiteral 16 site
  | .oct => Outcome.ofValue <$> radixLiteral 8 site
  | .bin => Outcome.ofValue <$> radixLiteral 2 site
  | .boolean => .ok (Outcome.ofValue (.bool (Text.lower site.text = "true")))
  | .string => .ok (Outcome.ofValue (stringLiteral site))
  | .openLiteral => Attempt.fail site (.slip .openLiteral)
  | .openLine => Attempt.fail site (.slip .openLine)
  | _ => .ok ⟨.mark kind site.text, .default⟩

/-- A name that stands for nothing is a value for now. -/
def valueOf (name : String) : Evaluation Value := do
  return ((← get).valueOf? name).getD (.name name)

def leaf (kind : Terminal) (site : Site) : Evaluation Outcome :=
  match kind with
  | .identifier => Outcome.ofValue <$> valueOf site.text
  | _ => ofAttempt (literal kind site)

end Calculator.Evaluation
