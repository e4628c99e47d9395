import Calculator.Program.Completion

/-!
# The console

Lines are typed one after the other. A line that ends in a backslash goes on in the next one.
-/

namespace Calculator

/-- What a program has written. -/
structure Output where
  out : String
  err : String
  deriving DecidableEq, Repr, Inhabited

namespace Output

def empty : Output := ⟨"", ""⟩

def append (a b : Output) : Output := ⟨a.out ++ b.out, a.err ++ b.err⟩

def toOut (line : String) : Output := ⟨line ++ "\n", ""⟩

def toErr (line : String) : Output := ⟨"", line ++ "\n"⟩

def log (lines : List String) : Output := ⟨"", String.join (lines.map (· ++ "\n"))⟩

/-- How a failed script is reported. -/
def report (failure : Failure) : Output := toErr ("Error: " ++ failure.message)

end Output

structure Console where
  session : Session
  /-- What has been typed of the text so far. -/
  typed : List Char
  /-- Whether errors come with a trace. -/
  tracing : Bool
  /-- Whether the log is written. -/
  verbose : Bool

namespace Console

def new (session : Session) (tracing verbose : Bool) : Console := ⟨session, [], tracing, verbose⟩

def greeting : Output := .toOut "decocalc repl — Ctrl-D to exit, / for commands"

/-- Characters that do not show or are no part of a script. -/
def isInvisible (c : Char) : Bool :=
  ['\u200b', '\u200c', '\u200d', '\ufeff', '\u00a0', '\r'].contains c

/-! ## Commands -/

def clearScreen : Output := ⟨"\x1b[2J\x1b[0;0H", ""⟩

def tracingFor (argument : String) (tracing : Bool) : Option Bool :=
  let word := Text.lower argument
  if ["on", "1", "true", "yes"].contains word then some true
  else if ["off", "0", "false", "no"].contains word then some false
  else if argument = "" then some !tracing
  else none

def setTracing (console : Console) (argument : String) : Console × Output :=
  match tracingFor argument console.tracing with
  | none => (console, .toErr "Usage: /py-traceback [on|off]")
  | some tracing =>
    let status := if tracing then "on" else "off"
    ({ console with tracing }, .toOut ("Python traceback: " ++ status))

def perform (console : Console) (command argument : String) : Console × Output :=
  match command with
  | "/clear" => (console, clearScreen)
  | "/help" => (console, .toOut console.session.help)
  | "/py-traceback" => console.setTracing argument
  | "/reset" => ({ console with session := console.session.reset }, .toOut "Environment reset.")
  | _ => (console, .toErr ("Unknown command: " ++ command))

/-- Nothing if the line is no command. -/
def command? (console : Console) (line : String) : Option (Console × Output) :=
  match Text.trimChars line.toList with
  | '/' :: cs =>
    let word := ('/' :: cs).takeWhile (!Text.isBlank ·)
    let argument := Text.trimStart (('/' :: cs).drop word.length)
    some (console.perform (String.ofList word) (String.ofList argument))
  | _ => none

/-! ## Lines -/

/-- Runs a script. What stops the program stops the console. -/
def evaluate (console : Console) (source : String) : Except Fault (Console × Output) :=
  let (result, session) := console.session.clearEvents.evaluate source
  let log := if console.verbose then Output.log session.log else .empty
  let console := { console with session := session.clearEvents }
  match result with
  | .ok result =>
    .ok (console, if result.text = "" then log else log.append (.toOut result.text))
  | .error (.fault fault) => .error fault
  | .error failure => .ok (console, log.append (.report failure))

/-- A text that has been typed to its end. -/
def submit (console : Console) (text : List Char) : Except Fault (Console × Output) :=
  let text := String.ofList (text.filter (!isInvisible ·))
  if Text.trim text = "" then .ok (console, .empty)
  else
    match console.command? text with
    | some done => .ok done
    | none => console.evaluate text

/-- The line that stands for an interruption. -/
def interruption : String := "\x03"

/-- One more line. -/
def enter (console : Console) (line : String) : Except Fault (Console × Output) :=
  if line = interruption then .ok ({ console with typed := [] }, .toOut "KeyboardInterrupt")
  else
    let typed := console.typed ++ line.toList
    if (Text.trimEnd typed).getLast? = some '\\' then
      .ok ({ console with typed := typed ++ ['\n'] }, .empty)
    else { console with typed := [] }.submit typed

/-- What is written at the end of the input. -/
def farewell : Output := .toOut ""

/-- All lines up to the end of the input. -/
def enterAll (console : Console) (output : Output) : List String → Except Fault Output
  | [] => .ok (output.append farewell)
  | line :: lines => do
    let (console, more) ← console.enter line
    enterAll console (output.append more) lines

end Console

end Calculator
