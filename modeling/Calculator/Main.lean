import Calculator.Program.Chance
import Calculator.Program.CommandLine
import Std.Time.DateTime.Timestamp

/-!
# The program

Everything is worked out by pure functions of a world. A file that turns out to be needed is read,
and the work is done again in a world that has it.
-/

namespace Calculator.Main

/-- Files that have been looked at. -/
abbrev Known := List (String × Except FileProblem String)

/-- Why a file could not be read. -/
def problemOf : IO.Error → FileProblem
  | .noFileOrDirectory .. => .missing
  | .inappropriateType _ code _ => if code = 21 then .isDirectory else .notDirectory
  | .permissionDenied .. => .forbidden
  | .invalidArgument .. => .nameTooLong
  | _ => .missing

def look (path : String) : IO (Except FileProblem String) := do
  try return .ok (← IO.FS.readFile path)
  catch problem => return .error (problemOf problem)

def read (known : Known) (path : Path) : Except FileProblem String :=
  if path.text.toList.contains '\x00' then .error .nullInPath
  else (known.lookup path.text).getD (.error .unread)

def seed : IO UInt64 := do
  return (← IO.getRandomBytes 8).foldl (fun n byte => n * 256 + byte.toUInt64) 0

/-- Does the work until it has all the files that it needs. -/
partial def inWorld {α : Type} (work : World → Except Fault α) : IO (Except Fault α) := do
  let now := (← Std.Time.Timestamp.now).toSecondsSinceUnixEpoch.val
  let seed ← seed
  let rec go (known : Known) : IO (Except Fault α) := do
    match work ⟨read known, now, Chance.drawn seed⟩ with
    | .error (.unread path) => go ((path, ← look path) :: known)
    | result => return result
  go []

def write (output : Output) : IO Unit := do
  IO.print output.out
  IO.eprint output.err
  (← IO.getStdout).flush

def stopped (fault : Fault) : IO UInt32 := do
  IO.eprintln fault.message
  return 1

def finish (result : Result) : IO UInt32 := do
  write result.output
  match result.exit with
  | .status code => return code.toUInt32
  | .complaint complaint =>
    IO.eprintln complaint
    return 1

/-- All lines of a stream. -/
partial def readAll (stream : IO.FS.Stream) : IO String := do
  let line ← stream.getLine
  if line.isEmpty then return "" else return line ++ (← readAll stream)

def prompt (console : Console) : String := if console.typed.isEmpty then ">>> " else "... "

/-- One line after the other until the input ends. -/
partial def converse (stream : IO.FS.Stream) (console : Console) : IO UInt32 := do
  write ⟨prompt console, ""⟩
  let line ← stream.getLine
  if line.isEmpty then
    write Console.farewell
    return 0
  let line := (line.dropEndWhile (· = '\n')).toString
  let entered ← inWorld fun world =>
    { console with session := console.session.withWorld world }.enter line
  match entered with
  | .ok (console, output) =>
    write output
    converse stream console
  | .error fault => stopped fault

def environmentNames : List String :=
  ["DECOCALC_MAX_DEPTH", "DECOCALC_EXTENSION_TIMEOUT", "DECOCALC_DEBUG_PY_TRACE"]

def environment : IO Environment :=
  environmentNames.filterMapM fun name => do return (← IO.getEnv name).map (name, ·)

/-- No file can be loaded as an extension here. -/
def library : Library := fun _ => .unknownKind

def start (program : Program) : IO UInt32 := do
  let stream ← IO.getStdin
  if program.options.interactive then
    write (program.output.append Console.greeting)
    converse stream program.console
  else
    let input ← if program.readsInput then readAll stream else pure ""
    let input := String.ofList (Text.unifyNewlines input.toList)
    match ← inWorld fun world => (program.withWorld world).run input [] with
    | .ok result => finish result
    | .error fault => stopped fault

end Calculator.Main

open Calculator Calculator.Main in
def main (arguments : List String) : IO UInt32 := do
  let environment ← environment
  match Program.prepare arguments environment library ⟨read [], 0, fun _ => 0⟩ with
  | .ok (.ok program) => start program
  | .ok (.error result) => finish result
  | .error fault => stopped fault
