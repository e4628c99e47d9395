import Calculator.Grammar.Terminal
import Calculator.Text.Word

/-!
# Cutting a source into tokens

At each place the readers are tried in order, and the first that reads something wins. Blanks,
comments and line continuations are read and dropped.
-/

namespace Calculator.Grammar

open Calculator.Text

/-- What was read and what is left, or nothing. -/
abbrev Reader := List Char → Option (List Char × List Char)

namespace Reader

/-- At least one character of the kind, and as many as there are. -/
def many (p : Char → Bool) : Reader := fun cs =>
  match cs.span p with
  | ([], _) => none
  | (read, rest) => some (read, rest)

def andThen (first second : Reader) : Reader := fun cs => do
  let (a, rest) ← first cs
  let (b, rest) ← second rest
  return (a ++ b, rest)

def orElse (first second : Reader) : Reader := fun cs =>
  match first cs with
  | some read => some read
  | none => second cs

/-- One character out of a few. -/
def oneOf (chars : List Char) : Reader
  | [] => none
  | c :: cs => if c ∈ chars then some ([c], cs) else none

def exactly (expected : List Char) : Reader := fun cs =>
  if expected.isPrefixOf cs then some (expected, cs.drop expected.length) else none

/-- As the reader, unless the next character is of the kind. -/
def notBefore (reader : Reader) (p : Char → Bool) : Reader := fun cs => do
  let (read, rest) ← reader cs
  if rest.head?.any p then none else some (read, rest)

/-- Reads nothing if the reader does not. -/
def optional (reader : Reader) : Reader := fun cs => some ((reader cs).getD ([], cs))

end Reader

open Reader

/-! ## Numbers -/

/-- Groups of three digits after a comma each. No digit may follow a group. -/
def takeGroups : List Char → List Char × List Char
  | ',' :: a :: b :: c :: rest =>
    if isDecimal a && isDecimal b && isDecimal c && !rest.head?.any isDecimal then
      let (groups, rest) := takeGroups rest
      (',' :: a :: b :: c :: groups, rest)
    else ([], ',' :: a :: b :: c :: rest)
  | cs => ([], cs)

def readWhole : Reader := (many isDecimal).andThen fun cs => some (takeGroups cs)

def readFraction : Reader := (oneOf ['.']).andThen (many isDecimal)

def readFloat : Reader := fun cs =>
  if cs.head?.any isDecimal then readWhole.andThen readFraction cs else readFraction cs

def readExponent : Reader :=
  (oneOf ['e', 'E']).andThen ((optional (oneOf ['+', '-'])).andThen (many isDecimal))

def readScientific : Reader :=
  (readFloat.andThen readExponent).orElse (readWhole.andThen readExponent)

def isHexDigit (c : Char) : Bool :=
  c.isDigit || ('a' ≤ c && c ≤ 'f') || ('A' ≤ c && c ≤ 'F')

def isOctalDigit (c : Char) : Bool := '0' ≤ c && c ≤ '7'

def isBinaryDigit (c : Char) : Bool := c = '0' || c = '1'

/-- A zero, a letter and digits. -/
def readRadix (letters : List Char) (p : Char → Bool) : Reader :=
  (oneOf ['0']).andThen ((oneOf letters).andThen (many p))

/-- A zero and octal digits, unless the number goes on in another way. -/
def readBareOctal : Reader :=
  ((oneOf ['0']).andThen (many isOctalDigit)).notBefore fun c =>
    isDecimal c || c = '.' || c = 'e' || c = 'E'

/-! ## Words and quotes -/

/-- The letter in either case. The long s is an s. -/
def isLetter (letter c : Char) : Bool := c.toLower = letter || (letter = 's' && c = 'ſ')

def readLetters : List Char → Reader
  | [], cs => some ([], cs)
  | letter :: letters, c :: cs =>
    if isLetter letter c then (readLetters letters cs).map fun (read, rest) => (c :: read, rest)
    else none
  | _ :: _, [] => none

def readBoolean : Reader :=
  ((readLetters ['t', 'r', 'u', 'e']).orElse (readLetters ['f', 'a', 'l', 's', 'e'])).notBefore
    isWord

/-- Up to the closing quote. A backslash takes the next character with it. -/
def readQuoted (quote : Char) : Reader
  | [] => none
  | c :: cs =>
    if c = quote then some ([c], cs)
    else if c = '\n' then none
    else if c = '\\' then
      match cs with
      | [] => none
      | d :: ds =>
        if d = '\n' then none
        else (readQuoted quote ds).map fun (read, rest) => (c :: d :: read, rest)
    else (readQuoted quote cs).map fun (read, rest) => (c :: read, rest)

def readString : Reader
  | [] => none
  | c :: cs =>
    if c = '"' || c = '\'' then (readQuoted c cs).map fun (read, rest) => (c :: read, rest)
    else none

def restOfLine : Reader := optional (many (· ≠ '\n'))

def readOpenLiteral : Reader := (oneOf ['"', '\'']).andThen restOfLine

def readIdentifier : Reader := fun cs =>
  if cs.head?.any startsName then many isWord cs else none

/-! ## Lines and blanks -/

def isInlineBlank (c : Char) : Bool := c = ' ' || c = '\t' || c = '\x0c'

def readNewline : Reader := (optional (oneOf ['\r'])).andThen (oneOf ['\n'])

/-- A backslash and blanks after it. -/
def readBackslash : Reader :=
  (oneOf ['\\']).andThen (optional (many fun c => c = ' ' || c = '\t'))

def readContinuation : Reader := readBackslash.andThen readNewline

def readOpenLine : Reader := readBackslash.notBefore fun _ => true

def readComment : Reader := (exactly ['/', '/']).andThen restOfLine

/-! ## All of them -/

/-- The longer ones come first. -/
def operators : List (Terminal × List Char) :=
  [(.pow, ['*', '*']), (.shiftLeft, ['<', '<']), (.shiftRight, ['>', '>']), (.le, ['<', '=']),
    (.ge, ['>', '=']), (.eq, ['=', '=']), (.ne, ['!', '=']), (.and, ['&', '&']),
    (.or, ['|', '|']), (.star, ['*']), (.slash, ['/']), (.percent, ['%']), (.plus, ['+']),
    (.minus, ['-']), (.lt, ['<']), (.gt, ['>']), (.equal, ['=']), (.amp, ['&']), (.pipe, ['|']),
    (.caret, ['^']), (.tilde, ['~']), (.bang, ['!']), (.question, ['?']), (.colon, [':']),
    (.comma, [',']), (.lpar, ['(']), (.rpar, [')']), (.lsqb, ['[']), (.rsqb, [']']),
    (.lbrace, ['\x7b']), (.rbrace, ['\x7d']), (.atSign, ['@'])]

/-- What each reader reads. What has no terminal is dropped. -/
def readers : List (Option Terminal × Reader) :=
  [(some .hex, readRadix ['x', 'X'] isHexDigit), (some .bin, readRadix ['b', 'B'] isBinaryDigit),
    (some .oct, (readRadix ['o', 'O'] isOctalDigit).orElse readBareOctal),
    (some .sci, readScientific), (some .float, readFloat), (some .boolean, readBoolean),
    (some .string, readString), (some .int, readWhole), (some .openLiteral, readOpenLiteral),
    (none, readComment), (none, readContinuation), (some .openLine, readOpenLine),
    (some .newline, readNewline), (none, many isInlineBlank), (some .identifier, readIdentifier),
    (some .currencySymbol, oneOf ['$', '€', '£', '¥'])] ++
  operators.map fun (terminal, chars) => (some terminal, exactly chars)

def readNext (cs : List Char) : Option (Option Terminal × List Char × List Char) :=
  readers.findSome? fun (terminal, reader) =>
    (reader cs).map fun (read, rest) => (terminal, read, rest)

/-- All tokens, or those before the first character that starts none. -/
structure Lexed where
  tokens : List Token
  /-- Where that character stands. -/
  stuck : Option Nat
  deriving Repr

def Lexed.cons (token : Token) (lexed : Lexed) : Lexed :=
  { lexed with tokens := token :: lexed.tokens }

/-- Each step reads at least one character, so the number of characters is fuel enough. -/
def lexFrom : Nat → Nat → List Char → Lexed
  | _, _, [] => ⟨[], none⟩
  | 0, index, _ :: _ => ⟨[], some index⟩
  | fuel + 1, index, cs =>
    match readNext cs with
    | none => ⟨[], some index⟩
    | some (terminal, read, rest) =>
      let others := lexFrom fuel (index + read.length) rest
      match terminal with
      | none => others
      | some kind => others.cons ⟨kind, String.ofList read, index⟩

def lex (source : String) : Lexed :=
  let cs := source.toList
  lexFrom cs.length 0 cs

end Calculator.Grammar
