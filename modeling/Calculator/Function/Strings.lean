import Calculator.Function.Mapping
import Calculator.Pattern.Reader
import Calculator.Pattern.Search
import Calculator.Text.Base64
import Calculator.Text.Percent
import Calculator.Value.Entries

/-! # Functions of strings -/

namespace Calculator.Builtin

def strings (name : String) (parameters : List Parameter) (description : String)
    (f : Call → Attempt Value) : Function :=
  ⟨⟨name, parameters⟩, description, some "strings", .compute f⟩

/-- The text of an argument. -/
def textOf (call : Call) (name : String) : Attempt String := do
  return (← call.required name).text

/-- Whether a text is a piece of another one. -/
def isPiece (piece : List Char) : List Char → Bool
  | [] => piece.isEmpty
  | c :: cs => piece.isPrefixOf (c :: cs) || isPiece piece cs

def contains (call : Call) : Attempt Value := do
  let source ← call.required "source"
  let sought ← call.required "s"
  match source with
  | .array items => return .bool (items.any (·.equal sought))
  | .object entries => return .bool (Entries.holds entries sought)
  | _ => return .bool (isPiece sought.text.toList source.text.toList)

def concat (call : Call) : Attempt Value :=
  .ok (.string (String.join ((call.all "s").map (·.text))))

def strlen (call : Call) : Attempt Value := do return .int (← textOf call "s").length

/-- A text made of the text of an argument. -/
def mapText (name : String) (f : String → String) (call : Call) : Attempt Value := do
  return .string (f (← textOf call name))

/-- An integer from zero to a limit. -/
def upTo (call : Call) (position limit : Nat) (value : Value) : Attempt Nat :=
  match value.integer? with
  | some n => if 0 ≤ n ∧ n ≤ limit then .ok n.toNat else call.outOfRange position
  | none => call.outOfRange position

def substr (call : Call) : Attempt Value := do
  let cs := (← textOf call "s").toList
  let start ← upTo call 2 cs.length (← call.required "start")
  let rest := cs.drop start
  match call.first? "length" with
  | none => return .string (String.ofList rest)
  | some value =>
    let length ← upTo call 3 rest.length value
    return .string (String.ofList (rest.take length))

/-- The text of a capture, or false if there is none. -/
def captured (text : Array Char) (found : Pattern.Found) (captures : Nat) (group : Int) : Value :=
  if group < 0 ∨ (captures : Int) < group then .bool false
  else
    match found.group? text group.toNat with
    | some s => .string s
    | none => .bool false

def regex (call : Call) : Attempt Value := do
  let pattern ← textOf call "pattern"
  let text := (← textOf call "subject").toList.toArray
  let group := (call.firstOr "group" (.int 0)).integer?.getD 0
  match Pattern.compile pattern with
  | .error .invalid => call.fail (.unreadable pattern "regular expression")
  | .error .tooManyRounds => .error (.fault .tooManyRounds)
  | .ok compiled =>
    match Pattern.search? text compiled.pattern with
    | some found => return captured text found compiled.captures group
    | none => return .bool false

/-- A text that may not be what it should be. -/
def decoded (kind : String) (decode? : String → Option String) (call : Call) : Attempt Value := do
  let s ← textOf call "input"
  match decode? s with
  | some t => return .string t
  | none => call.fail (.unreadable s kind)

def stringFunctions : List Function :=
  [strings "contains" [.anything "source", .anything "s"]
      "Returns true if array or string [source] contains [s]" contains,
    strings "concat" [⟨"s", .string, true, true⟩] "Concatenate a set of strings" concat,
    strings "strlen" [.string "s"] "Returns the length of the string s" strlen,
    strings "uppercase" [.string "s"] "Converts the string s to uppercase"
      (mapText "s" Text.upper),
    strings "lowercase" [.string "s"] "Converts the string s to lowercase"
      (mapText "s" Text.lower),
    strings "trim" [.string "s"] "Trim whitespace from a string" (mapText "s" Text.trim),
    strings "substr" [.string "s", ⟨"start", .int, false, false⟩, ⟨"length", .int, true, false⟩]
      ("Returns a substring from s, beginning at [start], and going to the end, " ++
        "or for [length] characters") substr,
    strings "regex" [.string "pattern", .string "subject", ⟨"group", .int, true, false⟩]
      "Returns a regular expression match from [subject], or false" regex,
    strings "urlencode" [.string "input"] "Escape characters in a string for use in a URL"
      (mapText "input" Text.Percent.encode),
    strings "urldecode" [.string "input"]
      "Decode urlencoded character escape sequences in a string"
      (decoded "urlencoded string" Text.Percent.decode?),
    strings "atob" [.string "input"] "Convert a string into a base64 encoded string"
      (mapText "input" Text.Base64.encode),
    strings "btoa" [.string "input"] "Convert a base64 encoded string to an ascii encoded string"
      (decoded "base64 string" Text.Base64.decode?)]

end Calculator.Builtin
