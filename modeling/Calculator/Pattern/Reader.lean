import Calculator.Pattern.Scanner

/-!
# Reading patterns

A pattern is a choice of sequences. Every step reads at least one character, so a few steps for each
character are fuel enough.
-/

namespace Calculator.Pattern

open Scanner

/-- A part of a sequence. -/
structure Item where
  pattern : Pattern
  /-- Rounds of it can be asked for, once. -/
  repeatable : Bool

def Item.ofPattern (pattern : Pattern) : Item :=
  match pattern with
  | .anchor .. | .rounds .. => ⟨pattern, false⟩
  | _ => ⟨pattern, true⟩

/-- The parts in order. The last one comes first in `items`. -/
def sequenceOf (items : List Item) : Pattern :=
  match items with
  | [item] => item.pattern
  | _ => .sequence (items.reverse.map (·.pattern))

/-! ## Repetition -/

/-- More rounds than anything has. -/
def roundLimit : Nat := 0xFFFFFFFF

def bounded (ds : List Char) (absent : Option Nat) : Scanner (Option Nat) :=
  if ds.isEmpty then return absent
  else
    let n := numberOf 10 ds
    if n < roundLimit then return some n else throw .tooManyRounds

/-- Counts in braces. Nothing, and nothing is read, if these are plain braces. -/
def readCounts : Scanner (Option (Nat × Option Nat)) := do
  let start ← get
  if (← peek) = some '\x7d' then return none
  let low ← digits
  let high ← if ← accept ',' then digits else pure low
  if ← accept '\x7d' then
    let least := (← bounded low (some 0)).getD 0
    let most ← bounded high none
    if most.all (least ≤ ·) then return some (least, most) else refuse
  else
    set start
    return none

/-- What a mark asks for, if it is one. -/
def readRounds (mark : Char) : Scanner (Option (Nat × Option Nat)) :=
  if mark = '?' then return some (0, some 1)
  else if mark = '*' then return some (0, none)
  else if mark = '+' then return some (1, none)
  else readCounts

def readAppetite : Scanner Appetite := do
  if ← accept '?' then return .lazy
  else if ← accept '+' then return .possessive
  else return .greedy

def repeatLast (items : List Item) (least : Nat) (most : Option Nat) : Scanner (List Item) := do
  match items with
  | ⟨pattern, true⟩ :: others =>
    return ⟨.rounds least most (← readAppetite) pattern, false⟩ :: others
  | _ => refuse

/-! ## Options -/

/-- The letters that options have. Two of them change nothing. -/
def optionLetters : List Char := ['i', 'L', 'm', 's', 'x', 'a', 't', 'u']

def setOption (value : Bool) (manner : Manner) : Char → Manner
  | 'i' => { manner with ignoreCase := value }
  | 'm' => { manner with multiline := value }
  | 's' => { manner with dotAll := value }
  | 'x' => { manner with verbose := value }
  | 'a' => { manner with ascii := value }
  | 'u' => { manner with ascii := !value }
  | _ => manner

def setOptions (value : Bool) (letters : List Char) (manner : Manner) : Manner :=
  letters.foldl (setOption value) manner

/-- One letter after the other. What follows the last one is none. -/
def readLetters : Scanner (List Char) := do
  upTo (← get).rest.length fun c => optionLetters.contains c

/-- Options for all that follows, or for one group. -/
inductive Options where
  | everywhere (letters : List Char)
  | within (added removed : List Char)

def readOptions : Scanner Options := do
  let added ← readLetters
  if added.contains 'L' || (added.contains 'a' && added.contains 'u') then refuse
  match ← next with
  | ')' => if added.isEmpty then refuse else return .everywhere added
  | ':' => if added.contains 't' || added.isEmpty then refuse else return .within added []
  | '-' =>
    let removed ← readLetters
    expect ':'
    let fixed := removed.any fun c => c = 'a' || c = 'u' || c = 'L' || c = 't'
    if removed.isEmpty || fixed || added.contains 't' || added.any removed.contains then refuse
    return .within added removed
  | _ => refuse

/-! ## Groups -/

def isName (name : String) : Bool :=
  match name.toList with
  | [] => false
  | c :: cs => Text.startsName c && cs.all Text.isWord

def readName (mark : Char) : Scanner String := do
  let name ← before mark
  if isName name then return name else refuse

/-- Past a comment. A backslash takes the next character with it. -/
def skipComment (mark : Char) (mustEnd : Bool) : Nat → Scanner Unit
  | 0 => refuse
  | fuel + 1 => do
    match ← peek with
    | none => if mustEnd then refuse
    | some c =>
      skip
      if c = '\\' then
        let _ ← next
        skipComment mark mustEnd fuel
      else if c ≠ mark then skipComment mark mustEnd fuel

/-- What opens a group. -/
inductive Opening where
  | capture (name : Option String)
  | plain (manner : Manner)
  | atomic
  | look (behind negated : Bool)
  | depending (number : Nat)

/-- An opening, or something that is done with already. -/
inductive Head where
  | group (opening : Opening)
  | item (pattern : Pattern)
  | comment
  | options (letters : List Char)

/-- The number of a capture by its name or its digits. -/
def readNumber : Scanner Nat := do
  let name ← before ')'
  if isName name then
    match (← get).names.lookup name with
    | some number => return number
    | none => refuse
  else
    match Number.readInteger? name with
    | some (.ofNat (n + 1)) =>
      modify fun scan => { scan with references := (n + 1) :: scan.references }
      return n + 1
    | _ => refuse

/-- Inside of a look behind, a capture must be closed and come before it. -/
def checkBehind (number : Nat) : Scanner Unit := do
  if (← get).behind.isSome then
    let _ ← checkCapture number

def readNamed (manner : Manner) : Scanner Head := do
  if ← accept '<' then return .group (.capture (some (← readName '>')))
  else if ← accept '=' then
    let name ← readName ')'
    match (← get).names.lookup name with
    | some number => return .item (← readAgain manner number)
    | none => refuse
  else refuse

/-- What comes after a parenthesis and a question mark. -/
def readMarked (manner : Manner) : Scanner Head := do
  let c ← next
  match c with
  | 'P' => readNamed manner
  | ':' => return .group (.plain manner)
  | '#' =>
    skipComment ')' true ((← get).rest.length + 1)
    return .comment
  | '=' => return .group (.look false false)
  | '!' => return .group (.look false true)
  | '<' =>
    match ← next with
    | '=' => return .group (.look true false)
    | '!' => return .group (.look true true)
    | _ => refuse
  | '(' =>
    let number ← readNumber
    checkBehind number
    return .group (.depending number)
  | '>' => return .group .atomic
  | _ =>
    if c ≠ '-' && !optionLetters.contains c then refuse
    modify fun scan => { scan with rest := c :: scan.rest }
    match ← readOptions with
    | .everywhere letters => return .options letters
    | .within added removed =>
      return .group (.plain (setOptions false removed (setOptions true added manner)))

def readHead (manner : Manner) : Scanner Head := do
  if ← accept '?' then readMarked manner else return .group (.capture none)

/-- The number of a capture that opens now. No two have one name. -/
def openCapture (name : Option String) : Scanner Nat := do
  let scan ← get
  let number := scan.widths.length + 1
  if name.any fun n => (scan.names.lookup n).isSome then refuse
  set { scan with
    widths := scan.widths ++ [none]
    names := (name.map (·, number)).toList ++ scan.names }
  return number

def closeCapture (number : Nat) (body : Pattern) : Scanner Unit :=
  modify fun scan => { scan with widths := scan.widths.set (number - 1) (some body.width) }

/-- Keeps in mind that what follows looks behind. -/
def enterBehind : Scanner Unit :=
  modify fun scan => { scan with behind := scan.behind.or (some (scan.widths.length + 1)) }

/-! ## Sequences -/

def isIgnored (c : Char) : Bool :=
  c = ' ' || c = '\t' || c = '\n' || c = '\r' || c = '\x0b' || c = '\x0c'

mutual

/-- Branches with bars between them. Only at the very start may options for everything stand. -/
def readBranches (top first : Bool) (manner : Manner) : Nat → Scanner (List Pattern)
  | 0 => refuse
  | fuel + 1 => do
    let branch ← readItems (top && first) manner [] fuel
    if ← accept '|' then
      let global := (← get).manner
      let manner := if top then global else manner
      return branch :: (← readBranches top false manner fuel)
    else return [branch]

def readChoice (top : Bool) (manner : Manner) : Nat → Scanner Pattern
  | 0 => refuse
  | fuel + 1 => do
    match ← readBranches top true manner fuel with
    | [branch] => return branch
    | branches => return .choice branches

/-- The rest of a group after its opening. -/
def readBody (manner : Manner) : Opening → Nat → Scanner Pattern
  | _, 0 => refuse
  | .capture name, fuel + 1 => do
    let number ← openCapture name
    let body ← readChoice false manner fuel
    expect ')'
    closeCapture number body
    return .capture number body
  | .plain inner, fuel + 1 => do
    let body ← readChoice false inner fuel
    expect ')'
    return body
  | .atomic, fuel + 1 => do
    let body ← readChoice false manner fuel
    expect ')'
    return .atomic body
  | .look behind negated, fuel + 1 => do
    let outer := (← get).behind
    if behind then enterBehind
    let body ← readChoice false manner fuel
    modify fun scan => { scan with behind := outer }
    expect ')'
    return .look behind negated body
  | .depending number, fuel + 1 => do
    let yes ← readItems false manner [] fuel
    let no ← if ← accept '|' then readItems false manner [] fuel else pure (.sequence [])
    expect ')'
    return .depending number yes no

/-- Items up to a bar, a closing parenthesis or the end. The last one read comes first. -/
def readItems (first : Bool) (manner : Manner) (items : List Item) : Nat → Scanner Pattern
  | 0 => refuse
  | fuel + 1 => do
    match ← peek with
    | none | some '|' | some ')' => return sequenceOf items
    | some c =>
      skip
      let push (pattern : Pattern) := readItems first manner (Item.ofPattern pattern :: items) fuel
      if manner.verbose && isIgnored c then readItems first manner items fuel
      else if manner.verbose && c = '#' then
        skipComment '\n' false ((← get).rest.length + 1)
        readItems first manner items fuel
      else
        match c with
        | '\\' => push (← readEscape manner)
        | '[' => push (← readSet manner)
        | '.' => push (.one manner .any)
        | '^' => push (.anchor manner .lineStart)
        | '$' => push (.anchor manner .lineEnd)
        | '*' | '+' | '?' | '\x7b' =>
          match ← readRounds c with
          | some (least, most) => readItems first manner (← repeatLast items least most) fuel
          | none => push (.one manner (.char c))
        | '(' =>
          match ← readHead manner with
          | .group opening =>
            let body ← readBody manner opening fuel
            readItems first manner (⟨body, true⟩ :: items) fuel
          | .item pattern => push pattern
          | .comment => readItems first manner items fuel
          | .options letters =>
            if !first || !items.isEmpty then refuse
            let manner := setOptions true letters manner
            modify fun scan => { scan with manner := manner }
            readItems first manner items fuel
        | _ => push (.one manner (.char c))

end

/-- A pattern and how many captures it has. -/
structure Compiled where
  pattern : Pattern
  captures : Nat

def compile (s : String) : Except Refusal Compiled := do
  let cs := s.toList
  let start : Scan := ⟨cs, [], [], none, [], {}⟩
  let (pattern, scan) ← (readChoice true {} (4 * cs.length + 8)).run start
  if !scan.rest.isEmpty || scan.references.any (scan.widths.length < ·) || pattern.looksFar then
    throw .invalid
  return ⟨pattern, scan.widths.length⟩

end Calculator.Pattern
