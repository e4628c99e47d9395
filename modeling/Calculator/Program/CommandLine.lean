import Calculator.Program.Console

/-!
# The command line

A script comes from the arguments, from a file or from the standard input. Instead of it, there can
be the console.
-/

namespace Calculator

/-- How a program ends. -/
inductive Exit where
  | status (code : Nat)
  /-- Bad arguments, said in words. -/
  | complaint (text : String)
  deriving DecidableEq, Repr

structure Options where
  extensions : List String := []
  maxDepth : Option Int := none
  verbose : Bool := false
  interactive : Bool := false
  source : Option String := none

namespace Options

/-- Digits of any script, and at least one. -/
def isNumber (s : String) : Bool := s ≠ "" && s.toList.all Text.isDigit

/-- Not all digits stand in a decimal place, and there can be too many of them. -/
def readDepth (s : String) : Except Fault (Except String Int) :=
  if !isNumber s then .ok (.error "--max-depth requires a positive integer")
  else if (Number.overlong? s).isSome then .error .tooManyDigits
  else
    match Number.readInteger? s with
    | some n => .ok (.ok n)
    | none => .error .looseDigit

/-- What comes after the first equals sign. -/
def afterEquals (s : String) : Option String :=
  match s.toList.dropWhile (· ≠ '=') with
  | [] => none
  | _ :: cs => some (String.ofList cs)

def isExtension (token : String) : Bool := token = "-e" || token = "--extension"

def isVerbose (token : String) : Bool := token = "-v" || token = "--verbose"

/-- Tokens from left to right. The first bad one ends it. -/
def read (options : Options) : List String → Except Fault (Except String Options)
  | [] => .ok (.ok options)
  | token :: tokens =>
    if isExtension token then
      match tokens with
      | [] => .ok (.error (token ++ " flag requires a path"))
      | path :: tokens => read { options with extensions := options.extensions ++ [path] } tokens
    else if token.startsWith "--extension=" then
      let path := (afterEquals token).getD ""
      read { options with extensions := options.extensions ++ [path] } tokens
    else if token.startsWith "--max-depth" then
      match afterEquals token, tokens with
      | some s, tokens =>
        match readDepth s with
        | .ok (.ok depth) => read { options with maxDepth := some depth } tokens
        | .ok (.error complaint) => .ok (.error complaint)
        | .error fault => .error fault
      | none, s :: tokens =>
        match readDepth s with
        | .ok (.ok depth) => read { options with maxDepth := some depth } tokens
        | .ok (.error complaint) => .ok (.error complaint)
        | .error fault => .error fault
      | none, [] => .ok (.error "--max-depth requires a positive integer")
    else if isVerbose token then read { options with verbose := true } tokens
    else if token = "--repl" then read { options with interactive := true } tokens
    else
      match options.source with
      | none => read { options with source := some token } tokens
      | some _ => .ok (.error ("Unexpected argument: " ++ token))

def config (options : Options) (environment : Environment) : Except String Config := do
  let config ← Config.ofEnvironment environment
  match options.maxDepth with
  | some depth => config.withMaxDepth depth
  | none => .ok config

/-- The options that the arguments ask for, and the limits to start with. -/
def settle (arguments : List String) (environment : Environment) :
    Except Fault (Except String (Options × Config)) := do
  match ← read {} arguments with
  | .error complaint => return .error complaint
  | .ok options => return (options.config environment).map (options, ·)

end Options

/-- A program that is ready to start. -/
structure Program where
  options : Options
  /-- Whether the environment asks for traces. -/
  tracing : Bool
  session : Session
  output : Output

/-- What a program comes to. -/
structure Result where
  exit : Exit
  output : Output

namespace Program

/-- Loads one extension after the other, and says so in the log. -/
def loadAll (library : Library) (program : Program) : List String → Except Result Program
  | [] => .ok program
  | path :: paths =>
    match program.session.load library path with
    | (.error failure, _) => .error ⟨.status 1, program.output.append (.report failure)⟩
    | (.ok extension, session) =>
      let line := "DEBUG decocalc.extensions: Loaded extension " ++ extension.describe ++
        " from " ++ extension.source.getD ""
      let log := if program.options.verbose then Output.toErr line else .empty
      loadAll library { program with session, output := program.output.append log } paths

/-- Everything before the script. -/
def prepare (arguments : List String) (environment : Environment) (library : Library)
    (world : World) : Except Fault (Except Result Program) := do
  match ← Options.settle arguments environment with
  | .error complaint => return .error ⟨.complaint complaint, .empty⟩
  | .ok (options, config) =>
    let session := Session.new config (some ⟨[], config.timeLimit⟩) world
    let tracing := (environment.lookup "DECOCALC_DEBUG_PY_TRACE").any (· ≠ "")
    return loadAll library ⟨options, tracing, session, .empty⟩ options.extensions

def withWorld (program : Program) (world : World) : Program :=
  { program with session := program.session.withWorld world }

def console (program : Program) : Console :=
  .new program.session program.tracing program.options.verbose

/-- Whether the script comes from the standard input. -/
def readsInput (program : Program) : Bool :=
  match program.options.source with
  | none | some "-" => true
  | some _ => false

/-- The script. An argument that is the name of a file stands for what is in the file. -/
def source (program : Program) (input : String) : Except Fault (Except Result String) := do
  match program.options.source with
  | none | some "-" =>
    if input = "" then
      return .error ⟨.complaint "No input provided on stdin", program.output⟩
    else return .ok input
  | some argument =>
    let file ← program.session.setting.world.fileAt? (Path.ofText argument)
    return .ok (file.getD argument)

def evaluate (program : Program) (source : String) : Except Fault Result :=
  let (result, session) := program.session.evaluate source
  let log := if program.options.verbose then Output.log session.log else .empty
  let output := program.output.append log
  match result with
  | .ok result => .ok ⟨.status 0, output.append (.toOut result.text)⟩
  | .error (.fault fault) => .error fault
  | .error failure => .ok ⟨.status 1, output.append (.report failure)⟩

def run (program : Program) (input : String) (lines : List String) : Except Fault Result := do
  if program.options.interactive then
    let output ← program.console.enterAll (program.output.append Console.greeting) lines
    return ⟨.status 0, output⟩
  else
    match ← program.source input with
    | .error result => return result
    | .ok source => program.evaluate source

end Program

end Calculator
