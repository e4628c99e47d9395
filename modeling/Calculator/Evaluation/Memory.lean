import Calculator.Decorator.Table
import Calculator.Extension.Host
import Calculator.Function.Table

/-!
# What an evaluation works with

The setting stays as it is while a script runs. The memory changes.
-/

namespace Calculator

/-- A function that a script defines. The body is text and is read again at each call. -/
structure Definition where
  name : String
  parameters : List String
  body : String
  deriving DecidableEq, Repr

def Definition.signature (definition : Definition) : String :=
  let parameters := String.intercalate ", " definition.parameters
  s!"{definition.name}({parameters}) = {definition.body}"

abbrev Definitions := Named Definition

namespace Definitions

def put (definitions : Definitions) (definition : Definition) : Definitions :=
  Named.put definitions definition.name definition

/-- By name. -/
def sorted (definitions : Definitions) : List Definition :=
  (definitions.mergeSort fun a b => a.1 ≤ b.1).map (·.2)

end Definitions

/-- What a log tells about a script. -/
inductive Event where
  | defined (signature : String)
  | calling (name : String) (depth : Nat)
  | limitReached (limit : Nat)
  deriving DecidableEq, Repr

structure Setting where
  /-- Calls of user functions and nested scripts stay below this depth. -/
  maxDepth : Nat
  functions : FunctionTable
  decorators : DecoratorTable
  host : Option Host
  world : World

structure Memory where
  bindings : Bindings
  definitions : Definitions
  depth : Nat
  /-- How many numbers have been drawn by chance. -/
  draws : Nat
  /-- The latest event comes first. -/
  events : List Event

namespace Memory

def empty : Memory := ⟨[], [], 0, 0, []⟩

def valueOf? (memory : Memory) (name : String) : Option Value :=
  (constants.get? name).or (memory.bindings.get? name)

def note (memory : Memory) (event : Event) : Memory :=
  { memory with events := event :: memory.events }

/-- One level deeper. -/
def descend (memory : Memory) : Memory := { memory with depth := memory.depth + 1 }

/-- One level back. -/
def ascend (memory : Memory) : Memory := { memory with depth := memory.depth - 1 }

/-- What has been drawn and noted in another memory counts here too. -/
def catchUp (memory other : Memory) : Memory :=
  { memory with draws := other.draws, events := other.events }

/-- Forgets all that scripts have said. -/
def reset (memory : Memory) : Memory :=
  { memory with bindings := [], definitions := [], depth := 0 }

end Memory

/-- A computation on the memory. What it has changed stays changed when it fails. -/
abbrev Evaluation := ExceptT Failure (StateM Memory)

namespace Evaluation

def fail {α : Type} (site : Site) (cause : Cause) : Evaluation α := throw (.located site cause)

def ofAttempt {α : Type} : Attempt α → Evaluation α
  | .ok a => pure a
  | .error failure => throw failure

theorem bind_apply {α β : Type} (e : Evaluation α) (f : α → Evaluation β) (memory : Memory) :
    (e >>= f) memory =
      match e memory with
      | (.ok a, after) => f a after
      | (.error failure, after) => (.error failure, after) := by
  simp only [bind, ExceptT.bind, ExceptT.mk, StateT.bind, ExceptT.bindCont]
  rcases e memory with ⟨_ | a, after⟩ <;> rfl

theorem get_bind_apply {α : Type} (f : Memory → Evaluation α) (memory : Memory) :
    (get >>= f) memory = f memory memory := rfl

theorem map_apply {α β : Type} (f : α → β) (e : Evaluation α) (memory : Memory) :
    (f <$> e) memory = (f <$> (e memory).1, (e memory).2) := by
  rw [← bind_pure_comp, bind_apply]
  rcases e memory with ⟨_ | a, after⟩ <;> rfl

/-- Foreign code works on the variables alone. -/
def ofVisit {α : Type} (visit : Visit α) : Evaluation α := do
  let memory ← get
  let (result, bindings) := visit memory.bindings
  set { memory with bindings }
  ofAttempt result

theorem ofVisit_apply {α : Type} (visit : Visit α) (memory : Memory) :
    ofVisit visit memory =
      ((visit memory.bindings).1, { memory with bindings := (visit memory.bindings).2 }) := by
  change (ofAttempt (visit memory.bindings).1 : Evaluation α) _ = _
  cases (visit memory.bindings).1 <;> rfl

def note (event : Event) : Evaluation Unit := modify (·.note event)

/-- The place of the next number in the row that chance draws. -/
def draw : Evaluation Nat := do
  let drawn := (← get).draws
  modify fun memory => { memory with draws := memory.draws + 1 }
  return drawn

/-- Works one level deeper and comes back to the level before, also after a failure. -/
def oneDeeper {α : Type} (work : Evaluation α) : Evaluation α := fun memory =>
  let (result, after) := work memory.descend
  (result, after.ascend)

/-- Works on another memory. Of that one, only the numbers drawn and the events count later. -/
def apart {α : Type} (prepare : Memory → Memory) (work : Evaluation α) : Evaluation α :=
  fun memory =>
    let (result, after) := work (prepare memory)
    (result, memory.catchUp after)

end Evaluation

end Calculator
