import Calculator.Evaluation.Help
import Calculator.Evaluation.Outcome
import Calculator.Grammar.Tree

/-!
# Calls

A name means a function of an extension first, then one of the table, then one that a script has
defined. Scripts inside of scripts run one level deeper.
-/

namespace Calculator.Evaluation

open Grammar

/-- Runs a source on a memory that is one level deeper already. -/
abbrev Deeper := String → Evaluation Value

/-- On the same variables. -/
def runNested (setting : Setting) (deeper : Deeper) (site : Site) (source : String) :
    Evaluation Value := do
  if setting.maxDepth ≤ (← get).depth + 1 then fail site .tooDeep
  else oneDeeper (deeper source)

theorem runNested_apply (setting : Setting) (deeper : Deeper) (site : Site) (source : String)
    (memory : Memory) :
    runNested setting deeper site source memory =
      if setting.maxDepth ≤ memory.depth + 1 then (.error (.located site .tooDeep), memory)
      else oneDeeper (deeper source) memory := by
  by_cases h : setting.maxDepth ≤ memory.depth + 1
  · rw [if_pos h]
    exact congrFun (if_pos h) memory
  · rw [if_neg h]
    exact congrFun (if_neg h) memory

/-- The arguments under the names of the parameters, one level deeper. -/
def enter (definition : Definition) (arguments : List Value) (memory : Memory) : Memory :=
  let bindings := (definition.parameters.zip arguments).foldl
    (fun bindings (name, value) => bindings.put name value) memory.bindings
  { memory.descend with bindings }.note (.calling definition.name memory.descend.depth)

/-- On a copy of the variables with the arguments in it. Nothing that is set there comes back. -/
def callDefinition (setting : Setting) (deeper : Deeper) (site : Site) (definition : Definition)
    (arguments : List Value) : Evaluation Value := do
  let count := definition.parameters.length
  if arguments.length ≠ count then
    fail site (.argumentCount count (some count) definition.signature)
  else if setting.maxDepth ≤ (← get).depth + 1 then
    note (.limitReached setting.maxDepth)
    fail site .tooDeep
  else apart (enter definition arguments) (deeper definition.body)

theorem callDefinition_apply (setting : Setting) (deeper : Deeper) (site : Site)
    (definition : Definition) (arguments : List Value) (memory : Memory) :
    callDefinition setting deeper site definition arguments memory =
      if arguments.length ≠ definition.parameters.length then
        (.error (.located site (.argumentCount definition.parameters.length
          (some definition.parameters.length) definition.signature)), memory)
      else if setting.maxDepth ≤ memory.depth + 1 then
        (.error (.located site .tooDeep), memory.note (.limitReached setting.maxDepth))
      else apart (enter definition arguments) (deeper definition.body) memory := by
  unfold callDefinition
  by_cases hcount : arguments.length ≠ definition.parameters.length
  · rw [if_pos hcount, if_pos hcount]
    rfl
  · rw [if_neg hcount, if_neg hcount]
    by_cases h : setting.maxDepth ≤ memory.depth + 1
    · rw [if_pos h]
      exact congrFun (if_pos h) memory
    · rw [if_neg h]
      exact congrFun (if_neg h) memory

def helpFor (setting : Setting) (call : Call) : Evaluation Value := do
  let memory ← get
  match call.first? "function_name" with
  | none => return .string (Help.text setting memory)
  | some value =>
    match Help.describe setting memory value.text with
    | some text => return .string text
    | none => fail call.site (.unknownFunction value.text)

def behave (setting : Setting) (deeper : Deeper) (call : Call) : Behaviour → Evaluation Value
  | .compute f => ofAttempt (f call)
  | .consult f => ofAttempt (f setting.world call)
  | .draw f => do
    let drawn ← draw
    ofAttempt (f (setting.world.chance drawn) call)
  | .help => helpFor setting call
  | .run => do
    let source ← ofAttempt (call.required "expression")
    runNested setting deeper call.site source.text
  | .runFile => do
    let path ← ofAttempt (call.required "filename")
    let source ← ofAttempt (setting.world.sourceFor call.site (Path.ofText path.text))
    runNested setting deeper call.site source

def callFunction (setting : Setting) (deeper : Deeper) (site : Site) (function : Function)
    (arguments : List Value) : Evaluation Value := do
  let bound ← ofAttempt (function.signature.bind site arguments)
  behave setting deeper ⟨site, function.signature, bound⟩ function.behaviour

def callName (setting : Setting) (deeper : Deeper) (site : Site) (name : String)
    (arguments : List Value) : Evaluation Value := do
  let host := setting.host.filter fun host => (host.function? name).isSome
  match host, setting.functions.find? name, (← get).definitions.lookup name with
  | some host, _, _ => ofVisit (host.callFunction site name arguments)
  | none, some function, _ => callFunction setting deeper site function arguments
  | none, none, some definition => callDefinition setting deeper site definition arguments
  | none, none, none => fail site (.unknownFunction name)

/-! ## Definitions -/

/-- The names before the closing parenthesis. -/
def parametersOf : List Tree → List String
  | [] => []
  | .leaf .rpar _ :: _ => []
  | .leaf .identifier site :: trees => site.text :: parametersOf trees
  | _ :: trees => parametersOf trees

/-- Keeps the body as text. -/
def define (site : Site) (children : List Tree) : Evaluation Value :=
  match children.head?, children.getLast? with
  | some head, some body => do
    let definition : Definition := ⟨head.input, parametersOf (children.drop 2), body.input⟩
    modify fun memory => { memory with definitions := memory.definitions.put definition }
    note (.defined definition.signature)
    return .string body.input
  | _, _ => fail site (.internal "misshapen node")

end Calculator.Evaluation
