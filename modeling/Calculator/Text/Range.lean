/-! # Ranges of code points -/

namespace Calculator.Text

/-- Code points from the first to the last of each pair, both included. -/
abbrev Ranges := List (Nat × Nat)

def Ranges.holds (ranges : Ranges) (code : Nat) : Bool :=
  ranges.any fun range => range.1 ≤ code && code ≤ range.2

end Calculator.Text
