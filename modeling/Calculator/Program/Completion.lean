import Calculator.Program.Session
import Calculator.Text.Word

/-! # Completions -/

namespace Calculator

/-- A word that could stand where another one has been started. -/
structure Completion where
  text : String
  /-- How many characters before the cursor it replaces. -/
  replaced : Nat
  note : String
  deriving DecidableEq, Repr

/-- The commands of the console and what they do. -/
def commands : List (String × String) :=
  [("/clear", "Clear the terminal screen"),
    ("/help", "Show functions, decorators and variables"),
    ("/py-traceback", "Toggle Python traceback on errors"),
    ("/reset", "Forget variables and user-defined functions")]

namespace Completion

def isWordChar (c : Char) : Bool := c = '@' || Text.isWord c

/-- The word that the text ends with. One newline after it does not count. -/
def lastWord (cs : List Char) : List Char :=
  let cs := cs.reverse
  let cs := if cs.head? = some '\n' then cs.drop 1 else cs
  (cs.takeWhile isWordChar).reverse

/-- Everything with a name, and what it is. -/
def candidates (session : Session) : List (String × String) :=
  (session.setting.functions.sorted.map fun f => (f.name ++ "(", f.description)) ++
    (session.memory.definitions.map fun (name, d) => (name ++ "(", d.signature)) ++
    (session.setting.decorators.sorted.flatMap fun d =>
      d.names.map fun name => ("@" ++ name, d.description)) ++
    session.memory.bindings.map fun (name, _) => (name, "variable")

def starting (start : List Char) (words : List (String × String)) : List Completion :=
  (words.filter fun (word, _) => start.isPrefixOf word.toList).map fun (word, note) =>
    ⟨word, start.length, note⟩

end Completion

open Completion in
/-- What can come at the end of a text. -/
def Session.complete (session : Session) (text : String) : List Completion :=
  match text.toList with
  | '/' :: cs => starting ('/' :: cs) commands
  | cs =>
    let word := lastWord cs
    if word.isEmpty then []
    else starting word ((candidates session).filter fun (c, _) => c.toList ≠ word)

end Calculator
