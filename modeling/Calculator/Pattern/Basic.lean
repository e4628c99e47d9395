import Calculator.Text.Blank
import Calculator.Text.Case
import Calculator.Text.Word

/-!
# Patterns

Regular expressions as trees, and the characters and places that their leaves accept.
-/

namespace Calculator

/-- The kinds of characters that a backslash and a letter stand for. -/
inductive CharKind where
  | digit | blank | word
  deriving DecidableEq, Repr

/-- One item of a set in brackets. -/
inductive SetItem where
  | char (c : Char)
  | range (low high : Char)
  | kind (kind : CharKind) (negated : Bool)
  deriving DecidableEq, Repr

/-- How characters are looked at. -/
structure Manner where
  ignoreCase : Bool := false
  multiline : Bool := false
  dotAll : Bool := false
  verbose : Bool := false
  ascii : Bool := false
  deriving DecidableEq, Repr

inductive CharTest where
  | any
  | char (c : Char)
  | set (negated : Bool) (items : List SetItem)
  deriving DecidableEq, Repr

/-- Places between characters. -/
inductive Anchor where
  | textStart
  | textEnd
  | lineStart
  | lineEnd
  | wordEdge (negated : Bool)
  deriving DecidableEq, Repr

/-- Which number of rounds is tried first. -/
inductive Appetite where
  | greedy | lazy
  /-- As many as there are, and never fewer. -/
  | possessive
  deriving DecidableEq, Repr

/-- The fewest and the most characters that something takes. -/
structure Width where
  least : Nat
  most : Option Nat
  deriving DecidableEq, Repr

inductive Pattern where
  | one (manner : Manner) (test : CharTest)
  | anchor (manner : Manner) (anchor : Anchor)
  | sequence (parts : List Pattern)
  | choice (branches : List Pattern)
  /-- What it takes can be asked for by its number. -/
  | capture (number : Nat) (body : Pattern)
  /-- Only its first way to match counts. -/
  | atomic (body : Pattern)
  | rounds (least : Nat) (most : Option Nat) (appetite : Appetite) (body : Pattern)
  /-- The same text again. -/
  | again (manner : Manner) (number : Nat) (width : Width)
  /-- Looks ahead, or behind, and takes nothing. -/
  | look (behind negated : Bool) (body : Pattern)
  /-- Depends on whether a capture has taken anything. -/
  | depending (number : Nat) (yes no : Pattern)
  deriving Repr, Inhabited

namespace Width

def exactly (n : Nat) : Width := ⟨n, some n⟩

def add (a b : Width) : Width := ⟨a.least + b.least, do return (← a.most) + (← b.most)⟩

def or (a b : Width) : Width :=
  ⟨min a.least b.least, do return max (← a.most) (← b.most)⟩

/-- Many rounds of nothing are still nothing, and so are no rounds. -/
def times (w : Width) (least : Nat) (most : Option Nat) : Width :=
  let nothing := w.most = some 0 ∨ most = some 0
  ⟨w.least * least, if nothing then some 0 else do return (← w.most) * (← most)⟩

end Width

namespace Pattern

mutual

def width : Pattern → Width
  | one .. => .exactly 1
  | anchor .. | look .. => .exactly 0
  | sequence parts => widthAll parts
  | choice branches => widthAny branches
  | capture _ body | atomic body => width body
  | rounds least most _ body => (width body).times least most
  | again _ _ width => width
  | depending _ yes no => (width yes).or (width no)

def widthAll : List Pattern → Width
  | [] => .exactly 0
  | part :: parts => (width part).add (widthAll parts)

def widthAny : List Pattern → Width
  | [] => .exactly 0
  | [branch] => width branch
  | branch :: branches => (width branch).or (widthAny branches)

end

mutual

/-- What looks behind must know how far. -/
def looksFar : Pattern → Bool
  | look behind _ body =>
    (behind && (width body).most ≠ some (width body).least) || looksFar body
  | sequence parts | choice parts => anyLooksFar parts
  | capture _ body | atomic body | rounds _ _ _ body => looksFar body
  | depending _ yes no => looksFar yes || looksFar no
  | _ => false

def anyLooksFar : List Pattern → Bool
  | [] => false
  | part :: parts => looksFar part || anyLooksFar parts

end

end Pattern

/-! ## Case -/

namespace Text

/-- Lower case letters that count as one when case does not matter. -/
def caseFamilies : List (List Nat) :=
  [[0x69, 0x131], [0x73, 0x17F], [0xB5, 0x3BC], [0x345, 0x3B9, 0x1FBE], [0x390, 0x1FD3],
    [0x3B0, 0x1FE3], [0x3B2, 0x3D0], [0x3B5, 0x3F5], [0x3B8, 0x3D1], [0x3BA, 0x3F0],
    [0x3C0, 0x3D6], [0x3C1, 0x3F1], [0x3C2, 0x3C3], [0x3C6, 0x3D5], [0x432, 0x1C80],
    [0x434, 0x1C81], [0x43E, 0x1C82], [0x441, 0x1C83], [0x442, 0x1C84, 0x1C85],
    [0x44A, 0x1C86], [0x463, 0x1C87], [0x1C88, 0xA64B], [0x1E61, 0x1E9B], [0xFB05, 0xFB06]]

def lowerChar (c : Char) : Char := (lowerOf c).head?.getD c

/-- The lower case letters that a character stands for when case does not matter. -/
def family (c : Char) : List Char :=
  let lower := lowerChar c
  match caseFamilies.find? (·.contains lower.toNat) with
  | some codes => codes.map Char.ofNat
  | none => [lower]

/-- Two characters that differ in case at most. -/
def sameLetter (ascii : Bool) (a b : Char) : Bool :=
  if ascii then a.toLower = b.toLower else (family a).contains (lowerChar b)

/-- All forms of a letter, as far as one character is enough for them. -/
def forms (ascii : Bool) (c : Char) : List Char :=
  if ascii then [c.toLower, c.toUpper]
  else
    (family c).flatMap fun lower =>
      lower :: (match upperOf lower with
        | [upper] => [upper]
        | _ => [])

end Text

/-! ## Leaves -/

open Text

namespace CharKind

def holds (ascii : Bool) : CharKind → Char → Bool
  | digit, c => if ascii then c.isDigit else isDecimal c
  | blank, c => isBlank c && (!ascii || (c.toNat < 0x80 && !isSeparator c))
  | word, c => isWord c && (!ascii || c.toNat < 0x80)

end CharKind

def SetItem.holds (manner : Manner) (c : Char) : SetItem → Bool
  | char d => if manner.ignoreCase then sameLetter manner.ascii c d else c = d
  | range low high =>
    if manner.ignoreCase then
      (c :: forms manner.ascii c).any fun d => low ≤ d && d ≤ high
    else low ≤ c && c ≤ high
  | kind k negated => k.holds manner.ascii c != negated

def CharTest.holds (manner : Manner) (c : Char) : CharTest → Bool
  | any => manner.dotAll || c ≠ '\n'
  | char d => SetItem.holds manner c (.char d)
  | set negated items => items.any (SetItem.holds manner c) != negated

/-- Whether a place has a word character on just one side. -/
def isWordEdge (ascii : Bool) (text : Array Char) (place : Nat) : Bool :=
  let isWordAt (i : Nat) := text[i]?.any (CharKind.word.holds ascii)
  (place ≠ 0 && isWordAt (place - 1)) != isWordAt place

/-- An empty text has no place that counts as a word edge, and none that counts as no edge. -/
def Anchor.holds (manner : Manner) (text : Array Char) (place : Nat) : Anchor → Bool
  | textStart => place = 0
  | textEnd => place = text.size
  | lineStart => place = 0 || (manner.multiline && text[place - 1]? = some '\n')
  | lineEnd =>
    place = text.size ||
      (text[place]? = some '\n' && (manner.multiline || place + 1 = text.size))
  | wordEdge negated => !text.isEmpty && isWordEdge manner.ascii text place != negated

end Calculator
