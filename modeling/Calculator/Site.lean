import Calculator.Text.Blank

/-! # Places in a source -/

namespace Calculator

/-- A piece of a source and how many characters stand before it. -/
structure Site where
  text : String
  index : Nat
  deriving DecidableEq, Repr, Inhabited

namespace Site

/-- The first eight characters of the piece, without blanks at their ends. -/
def snippet (site : Site) : String :=
  String.ofList (Text.trimChars (site.text.toList.take 8))

/-- How an error message ends. -/
def label (site : Site) : String := s!" at {site.snippet} (col {site.index})"

end Site

end Calculator
