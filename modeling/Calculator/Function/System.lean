import Calculator.Function.Mapping
import Calculator.Value.Conversion

/-! # Functions of the clock and of files -/

namespace Calculator.Builtin

def time (world : World) (_ : Call) : Attempt Value := .ok (.int world.now)

/-- The last lines of a file. -/
def lastLines (count : Nat) (s : String) : String :=
  let lines := (Text.linesOf s.toList).map String.ofList
  String.intercalate "\n" (lines.drop (lines.length - count))

def tail (world : World) (call : Call) : Attempt Value := do
  let path := Path.ofText (← call.required "filename").text
  match (call.firstOr "lines" (.int 1)).integer? with
  | some (.ofNat count) => return .string (lastLines count (← world.sourceFor call.site path))
  | _ => call.outOfRange 2

def systemFunctions : List Function :=
  [⟨⟨"time", []⟩, "Returns a unix timestamp for the current system time", some "system",
      .consult time⟩,
    ⟨⟨"tail", [.string "filename", ⟨"lines", .int, true, false⟩]⟩,
      "Returns the last [lines] lines from a given file", some "system", .consult tail⟩]

/-- Functions that ask about scripts or run them. -/
def engineFunctions : List Function :=
  [⟨⟨"help", [⟨"function_name", .string, true, false⟩]⟩,
      "Display a help message, or describe one function or decorator", none, .help⟩,
    ⟨⟨"run", [.string "expression"]⟩, "Run a string as an expression", none, .run⟩,
    ⟨⟨"call", [.string "filename"]⟩, "Run the contents of a file as a script", none, .runFile⟩]

end Calculator.Builtin
