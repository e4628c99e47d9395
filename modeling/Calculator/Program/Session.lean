import Calculator.Decorator.Builtins
import Calculator.Evaluation.Script
import Calculator.Function.Builtins
import Calculator.Program.Config

/-! # Sessions -/

namespace Calculator

/-- One memory that scripts use one after the other. -/
structure Session where
  setting : Setting
  memory : Memory

namespace Session

def new (config : Config) (host : Option Host) (world : World) : Session :=
  ⟨⟨config.maxDepth.toNat, .builtin, .builtin, host, world⟩, .empty⟩

def run {α : Type} (session : Session) (evaluation : Evaluation α) : Attempt α × Session :=
  let (result, memory) := evaluation session.memory
  (result, { session with memory })

def evaluate (session : Session) (source : String) : Attempt ScriptResult × Session :=
  session.run (Calculator.evaluate session.setting source)

def withWorld (session : Session) (world : World) : Session :=
  { session with setting := { session.setting with world } }

def reset (session : Session) : Session := { session with memory := session.memory.reset }

def addFunction (session : Session) (function : Function) : Session :=
  { session with setting :=
    { session.setting with functions := session.setting.functions.add function } }

def addDecorator (session : Session) (decorator : Decorator) : Session :=
  { session with setting :=
    { session.setting with decorators := session.setting.decorators.add decorator } }

/-- Adds what a library has at a path. -/
def load (session : Session) (library : Library) (path : String) :
    Attempt Extension × Session :=
  match library.load (Path.ofText path) with
  | .error failure => (.error failure, session)
  | .ok extension =>
    let host := (session.setting.host.getD ⟨[], none⟩).add extension
    (.ok extension, { session with setting := { session.setting with host := some host } })

def help (session : Session) : String := Help.text session.setting session.memory

def describe (session : Session) (name : String) : Option String :=
  Help.describe session.setting session.memory name

/-- Forgets what has been logged. -/
def clearEvents (session : Session) : Session :=
  { session with memory := { session.memory with events := [] } }

end Session

/-! ## The log -/

namespace Event

def text : Event → String
  | defined signature => s!"DEBUG decocalc.eval.calls: Defined {signature}"
  | calling name depth => s!"DEBUG decocalc.eval.calls: Calling {name} at depth {depth}"
  | limitReached limit => s!"DEBUG decocalc.runtime: Recursion limit {limit} reached"

end Event

/-- The lines of the log, the earliest first. -/
def Session.log (session : Session) : List String := (session.memory.events.map Event.text).reverse

end Calculator
