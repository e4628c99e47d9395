import Calculator.Text.CaseTable

/-!
# Upper, lower and title case

One character may turn into several. A capital sigma at the end of a word has a lower case of its
own.
-/

namespace Calculator.Text

def mapCode (runs : List CaseRun) (many : List (Nat × List Nat)) (c : Char) : List Char :=
  match many.lookup c.toNat with
  | some codes => codes.map Char.ofNat
  | none => [((runs.findSome? fun run => run.apply? c.toNat).map Char.ofNat).getD c]

def upperOf (c : Char) : List Char :=
  if c.toNat < 0x80 then [c.toUpper] else mapCode upperRuns upperMany c

def lowerOf (c : Char) : List Char :=
  if c.toNat < 0x80 then [c.toLower] else mapCode lowerRuns lowerMany c

def titleOf (c : Char) : List Char :=
  match titleOnly.lookup c.toNat with
  | some codes => codes.map Char.ofNat
  | none => upperOf c

def isCased (c : Char) : Bool :=
  if c.toNat < 0x80 then c.isAlpha else casedRanges.holds c.toNat

def isCaseIgnorable (c : Char) : Bool := caseIgnorableRanges.holds c.toNat

/-- The nearest character that case rules do not look past has a case. -/
def touchesCased (near : List Char) : Bool :=
  match near.dropWhile isCaseIgnorable with
  | [] => false
  | c :: _ => isCased c

/-- A sigma ends a word when a cased letter stands before it and none after it. -/
def lowerSigma (before after : List Char) : Char :=
  if touchesCased before && !touchesCased after then 'ς' else 'σ'

/-- `before` holds the characters already read, the last one first. -/
def lowerFrom (before : List Char) : List Char → List Char
  | [] => []
  | c :: after =>
    (if c = 'Σ' then [lowerSigma before after] else lowerOf c) ++ lowerFrom (c :: before) after

def titleFrom (before : List Char) : List Char → List Char
  | [] => []
  | c :: after =>
    let inWord := match before with
      | [] => false
      | b :: _ => isCased b
    let here :=
      if !inWord then titleOf c
      else if c = 'Σ' then [lowerSigma before after]
      else lowerOf c
    here ++ titleFrom (c :: before) after

def upper (s : String) : String := String.ofList (s.toList.flatMap upperOf)

def lower (s : String) : String := String.ofList (lowerFrom [] s.toList)

/-- Each word starts with a capital and goes on in lower case. -/
def title (s : String) : String := String.ofList (titleFrom [] s.toList)

end Calculator.Text
