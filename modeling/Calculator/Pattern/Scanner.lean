import Calculator.Number.Reading
import Calculator.Pattern.Basic

/-!
# Reading the leaves of patterns

The state of the reader, and what comes after a backslash and in brackets.
-/

namespace Calculator

/-- Why a text is no pattern. -/
inductive Refusal where
  | invalid
  /-- A count that no repetition can have. -/
  | tooManyRounds
  deriving DecidableEq, Repr

/-- What is left to read, and what has been learned so far. -/
structure Scan where
  rest : List Char
  /-- The widths of the captures. An open one has none yet. -/
  widths : List (Option Width)
  names : List (String × Nat)
  /-- Inside of a look behind, how many captures there were before it. -/
  behind : Option Nat
  /-- Numbers of captures that have to be there in the end. -/
  references : List Nat
  manner : Manner

abbrev Scanner := StateT Scan (Except Refusal)

namespace Scanner

def refuse {α : Type} : Scanner α := throw .invalid

def peek : Scanner (Option Char) := return (← get).rest.head?

def skip : Scanner Unit := modify fun scan => { scan with rest := scan.rest.drop 1 }

/-- The next character, which must be there. -/
def next : Scanner Char := do
  match ← peek with
  | some c => skip; return c
  | none => refuse

def accept (c : Char) : Scanner Bool := do
  if (← peek) = some c then
    skip
    return true
  else return false

def expect (c : Char) : Scanner Unit := do if !(← accept c) then refuse

/-- At most `most` characters of a kind. -/
def upTo (most : Nat) (p : Char → Bool) : Scanner (List Char) := do
  let taken := ((← get).rest.take most).takeWhile p
  modify fun scan => { scan with rest := scan.rest.drop taken.length }
  return taken

def digits : Scanner (List Char) := do upTo (← get).rest.length Char.isDigit

/-- Everything before an end mark, which must come. -/
def before (mark : Char) : Scanner String := do
  let taken := (← get).rest.takeWhile (· ≠ mark)
  modify fun scan => { scan with rest := scan.rest.drop taken.length }
  expect mark
  if taken.isEmpty then refuse
  return String.ofList taken

end Scanner

open Scanner

/-! ## Characters behind a backslash -/

namespace Pattern

def hexDigit? (c : Char) : Option Nat :=
  if c.isDigit then some (c.toNat - 48)
  else if 'a' ≤ c ∧ c ≤ 'f' then some (c.toNat - 87)
  else if 'A' ≤ c ∧ c ≤ 'F' then some (c.toNat - 55)
  else none

def isOctal (c : Char) : Bool := '0' ≤ c && c ≤ '7'

def numberOf (base : Nat) (cs : List Char) : Nat := Number.ofDigits base (cs.filterMap hexDigit?)

def isAsciiLetter (c : Char) : Bool := c.toNat < 0x80 && c.isAlpha

/-- Code points from the first one without a character up to the last one. -/
def charOf (code : Nat) : Scanner Char :=
  if code < 0x110000 then return Char.ofNat code else refuse

/-- A code point in exactly so many hexadecimal digits. -/
def readCode (count : Nat) : Scanner Char := do
  let ds ← upTo count fun c => (hexDigit? c).isSome
  if ds.length = count then charOf (numberOf 16 ds) else refuse

def octalChar (ds : List Char) : Scanner Char :=
  let code := numberOf 8 ds
  if code ≤ 0xFF then return Char.ofNat code else refuse

def control? : Char → Option Char
  | 'a' => some '\x07'
  | 'f' => some '\x0c'
  | 'n' => some '\n'
  | 'r' => some '\r'
  | 't' => some '\t'
  | 'v' => some '\x0b'
  | '\\' => some '\\'
  | _ => none

def kind? : Char → Option SetItem
  | 'd' => some (.kind .digit false)
  | 'D' => some (.kind .digit true)
  | 's' => some (.kind .blank false)
  | 'S' => some (.kind .blank true)
  | 'w' => some (.kind .word false)
  | 'W' => some (.kind .word true)
  | _ => none

def anchor? : Char → Option Anchor
  | 'A' => some .textStart
  | 'Z' => some .textEnd
  | 'b' => some (.wordEdge false)
  | 'B' => some (.wordEdge true)
  | _ => none

/-- The character that a letter stands for, or the character itself if it is no letter. -/
def readEscapedChar (c : Char) : Scanner Char :=
  match control? c with
  | some d => return d
  | none =>
    if c = 'x' then readCode 2
    else if c = 'u' then readCode 4
    else if c = 'U' then readCode 8
    else if isAsciiLetter c then refuse
    else return c

/-- A capture that text may refer to is closed, and comes before a look behind around the text. -/
def checkCapture (number : Nat) : Scanner Width := do
  let scan ← get
  match scan.widths[number - 1]? with
  | some (some width) =>
    if number ≠ 0 ∧ scan.behind.all (number < ·) then return width else refuse
  | _ => refuse

def readAgain (manner : Manner) (number : Nat) : Scanner Pattern := do
  return .again manner number (← checkCapture number)

/-- Digits are a character in octal or the number of a capture. -/
def readNumbered (manner : Manner) (first : Char) : Scanner Pattern := do
  if first = '0' then
    let more ← upTo 2 isOctal
    return .one manner (.char (← octalChar (first :: more)))
  else
    match ← upTo 1 Char.isDigit with
    | [second] =>
      if isOctal first && isOctal second then
        match ← upTo 1 isOctal with
        | [third] => return .one manner (.char (← octalChar [first, second, third]))
        | _ => readAgain manner (numberOf 10 [first, second])
      else readAgain manner (numberOf 10 [first, second])
    | _ => readAgain manner (numberOf 10 [first])

/-- What comes after a backslash. -/
def readEscape (manner : Manner) : Scanner Pattern := do
  let c ← next
  match anchor? c, kind? c with
  | some a, _ => return .anchor manner a
  | none, some item => return .one manner (.set false [item])
  | none, none =>
    if c.isDigit then readNumbered manner c
    else return .one manner (.char (← readEscapedChar c))

/-! ## Sets in brackets -/

/-- What comes after a backslash in brackets. -/
def readSetEscape : Scanner SetItem := do
  let c ← next
  match kind? c with
  | some item => return item
  | none =>
    if c = 'b' then return .char '\x08'
    else if isOctal c then
      let more ← upTo 2 isOctal
      return .char (← octalChar (c :: more))
    else if c.isDigit then refuse
    else return .char (← readEscapedChar c)

def readSetItem : Scanner SetItem := do
  let c ← next
  if c = '\\' then readSetEscape else return .char c

/-- A range has a character on each side, and they are in order. -/
def rangeOf (low high : SetItem) : Scanner SetItem :=
  match low, high with
  | .char a, .char b => if a ≤ b then return .range a b else refuse
  | _, _ => refuse

/-- Up to the closing bracket. Just after the opening one, it is a character. -/
def readSetItems : Nat → List SetItem → Scanner (List SetItem)
  | 0, _ => refuse
  | fuel + 1, items => do
    if !items.isEmpty && (← accept ']') then return items
    let item ← readSetItem
    if ← accept '-' then
      if ← accept ']' then return items ++ [item, .char '-']
      let high ← readSetItem
      readSetItems fuel (items ++ [← rangeOf item high])
    else readSetItems fuel (items ++ [item])

def readSet (manner : Manner) : Scanner Pattern := do
  let negated ← accept '^'
  let items ← readSetItems ((← get).rest.length + 1) []
  return .one manner (.set negated items)

end Pattern

end Calculator
