import Calculator.Failure
import Calculator.File.Path
import Calculator.Text.Newline

/-!
# The world around a script

Files, the clock and chance: all that a script can ask for beyond itself.
-/

namespace Calculator

/-- Why a file cannot be read. -/
inductive FileProblem where
  | missing
  | isDirectory
  | notDirectory
  | nameTooLong
  | forbidden
  | nullInPath
  /-- Nobody has looked yet. -/
  | unread
  deriving DecidableEq, Repr

namespace FileProblem

def text : FileProblem → String
  | missing => "No such file or directory"
  | isDirectory => "Is a directory"
  | notDirectory => "Not a directory"
  | nameTooLong => "File name too long"
  | forbidden => "Permission denied"
  | nullInPath | unread => ""

/-- What a function says that needs the file. -/
def failure (site : Site) (path : Path) : FileProblem → Failure
  | nullInPath => .fault .nullInPath
  | unread => .fault (.unread path.text)
  | problem => .located site (.file s!"could not read {path.text}: {problem.text}")

end FileProblem

structure World where
  read : Path → Except FileProblem String
  /-- Seconds since the start of 1970. -/
  now : Int
  /-- Numbers below two to the sixty-fourth, drawn one after the other. -/
  chance : Nat → Nat

namespace World

/-- A world without files in which time stands still. -/
def still : World := ⟨fun _ => .error .missing, 0, fun _ => 0⟩

/-- The text of a file with plain newlines. -/
def source (world : World) (path : Path) : Except FileProblem String :=
  (world.read path).map fun s => String.ofList (Text.unifyNewlines s.toList)

/-- As `source`, for a function called at a place. -/
def sourceFor (world : World) (site : Site) (path : Path) : Attempt String :=
  match world.source path with
  | .ok s => .ok s
  | .error problem => .error (problem.failure site path)

/-- The text of a file, or nothing if there is no file. -/
def fileAt? (world : World) (path : Path) : Except Fault (Option String) :=
  match world.source path with
  | .ok s => .ok (some s)
  | .error .nameTooLong => .error .pathTooLong
  | .error .unread => .error (.unread path.text)
  | .error _ => .ok none

end World

end Calculator
