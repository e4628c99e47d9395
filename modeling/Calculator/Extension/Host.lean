import Calculator.Extension.Plain
import Calculator.Failure
import Calculator.File.Path
import Calculator.Number.Notation
import Calculator.Value.Bindings

/-!
# Extensions

Functions and decorators from elsewhere. They see the variables and may change them. With a time
limit, they work on a copy, which counts only if they return in time. What they return is looked at
after that: an answer that is of no use comes too late to take the copy back.
-/

namespace Calculator

/-- How foreign code ends. -/
inductive Finish (α : Type) where
  | returned (a : α)
  | failed (complaint : String)
  /-- It has waited too long for something of its own. -/
  | timedOut
  /-- An error of the calculator itself, or a fault. Both are passed on as they are. -/
  | raised (failure : Failure)

/-- What foreign code leaves behind. -/
structure Reply (α : Type) where
  finish : Finish α
  bindings : Bindings
  seconds : Float

/-- What a decorator hands back. -/
inductive Shown where
  | value (v : Value)
  /-- Other data, by its text. -/
  | text (s : String)
  /-- Other data that stops the program when its text is asked for. -/
  | textless (what : String)

structure Extension where
  name : String
  author : String
  version : String
  functions : List (String × (List Value → Bindings → Reply Plain))
  decorators : List (String × (Value → Bindings → Reply Shown))
  /-- The file that it comes from. -/
  source : Option String

namespace Extension

def describe (extension : Extension) : String :=
  let version := if extension.version = "" then "" else " v" ++ extension.version
  let author := if extension.author = "" then "" else " by " ++ extension.author
  extension.name ++ version ++ author

def functionNames (extension : Extension) : List String :=
  (extension.functions.map (·.1)).mergeSort fun a b => a ≤ b

def decoratorNames (extension : Extension) : List String :=
  (extension.decorators.map (·.1)).mergeSort fun a b => a ≤ b

end Extension

/-- All extensions in use. The first one that has a name provides it. -/
structure Host where
  extensions : List Extension
  /-- In seconds. -/
  limit : Option Float

/-- What a piece of work comes to, and the variables after it. -/
abbrev Visit (α : Type) := Bindings → Attempt α × Bindings

namespace Host

def function? (host : Host) (name : String) : Option (List Value → Bindings → Reply Plain) :=
  host.extensions.findSome? fun extension => extension.functions.lookup name

def decorator? (host : Host) (name : String) : Option (Value → Bindings → Reply Shown) :=
  host.extensions.findSome? fun extension => extension.decorators.lookup name

def complain {α : Type} (site : Site) (complaint : String) : Attempt α :=
  Attempt.fail site (.extension complaint)

/-- The time limit in words. -/
def limitText (host : Host) : String :=
  match host.limit with
  | none => "None"
  | some limit => Number.general limit

def complainOfTime {α : Type} (host : Host) (site : Site) (label : String) : Attempt α :=
  complain site s!"{label} timed out after {host.limitText}s"

def finishWith {α : Type} (host : Host) (site : Site) (label : String) : Finish α → Attempt α
  | .returned a => .ok a
  | .failed complaint => complain site s!"{label} failed: {complaint}"
  | .timedOut => host.complainOfTime site label
  | .raised failure => .error failure

def visit {α : Type} (host : Host) (site : Site) (label : String) (work : Bindings → Reply α) :
    Visit α := fun bindings =>
  let reply := work bindings
  let result := host.finishWith site label reply.finish
  match host.limit with
  | none => (result, reply.bindings)
  | some limit =>
    if limit < reply.seconds then (host.complainOfTime site label, bindings)
    else
      match result with
      | .ok a => (.ok a, reply.bindings)
      | .error failure => (.error failure, bindings)

/-- A visit, and then what its answer comes to. That changes no variable any more. -/
def visitFor {α β : Type} (host : Host) (site : Site) (label : String)
    (work : Bindings → Reply α) (read : α → Attempt β) : Visit β := fun bindings =>
  let (result, bindings) := host.visit site label work bindings
  (result >>= read, bindings)

/-- A function must come to a value. -/
def valueOf (site : Site) (name : String) (plain : Plain) : Attempt Value :=
  match plain.toValue with
  | .ok value => .ok value
  | .error kind => complain site s!"{name}() returned an unsupported value: {Plain.complaint kind}"

/-- A decorator must come to a text. -/
def textOf : Shown → Attempt String
  | .value v => .ok v.text
  | .text s => .ok s
  | .textless what => .error (.fault (.foreign what))

def callFunction (host : Host) (site : Site) (name : String) (arguments : List Value) :
    Visit Value := fun bindings =>
  match host.function? name with
  | none => (complain site s!"no extension provides {name}()", bindings)
  | some function => host.visitFor site name (function arguments) (valueOf site name) bindings

def callDecorator (host : Host) (site : Site) (name : String) (value : Value) :
    Visit String := fun bindings =>
  match host.decorator? name with
  | none => (complain site s!"no extension provides @{name}", bindings)
  | some decorator => host.visitFor site ("@" ++ name) (decorator value) textOf bindings

def add (host : Host) (extension : Extension) : Host :=
  { host with extensions := host.extensions ++ [extension] }

end Host

/-! ## Loading -/

/-- What a file is to somebody who looks for an extension in it. -/
inductive Content where
  | unknownKind
  | failing (complaint : String)
  | noExtension
  | extension (extension : Extension)

abbrev Library := Path → Content

def Library.load (library : Library) (path : Path) : Attempt Extension :=
  let refuse (complaint : String) : Attempt Extension :=
    .error (.error (.extension complaint) none)
  match library path with
  | .unknownKind => refuse s!"cannot load extension from {path.text}"
  | .failing complaint => refuse s!"error loading extension {path.text}: {complaint}"
  | .noExtension => refuse s!"{path.text} does not define an 'extension'"
  | .extension extension => .ok { extension with source := some path.text }

end Calculator
