import Calculator.Failure

/-! # Decorators and their table -/

namespace Calculator

/-- How a value is written at the end of a line. -/
structure Decorator where
  names : List String
  description : String
  expected : Expected
  /-- Arrays and objects are written item by item, unless they are what is expected. -/
  plural : Bool
  render : Site → Value → Attempt String

namespace Decorator

/-- The first name is the one to sort by. -/
def name (decorator : Decorator) : String := decorator.names.headD ""

def help (decorator : Decorator) : String :=
  let signature := String.intercalate "/" (decorator.names.map ("@" ++ ·))
  s!"{signature}: {decorator.description}"

section

variable (decorator : Decorator) (site : Site)

mutual

def renderPlural : Value → Attempt String
  | .array items => do
    if decorator.expected.fits (.array items) then decorator.render site (.array items)
    else return "[" ++ String.intercalate ", " (← renderItems items) ++ "]"
  | .object entries => do
    if decorator.expected.fits (.object entries) then decorator.render site (.object entries)
    else return "\x7b" ++ String.intercalate ", " (← renderEntries entries) ++ "\x7d"
  | value =>
    if decorator.expected.fits value then decorator.render site value
    else Attempt.fail site (.valueType decorator.expected)

def renderItems : List Value → Attempt (List String)
  | [] => .ok []
  | item :: items => do return (← renderPlural item) :: (← renderItems items)

def renderEntries : Entries → Attempt (List String)
  | [] => .ok []
  | (key, value) :: entries => do
    return (key.text ++ ": " ++ (← renderPlural value)) :: (← renderEntries entries)

end

def call (value : Value) : Attempt String :=
  if decorator.plural then decorator.renderPlural site value
  else if decorator.expected.admits value then decorator.render site value
  else Attempt.fail site (.valueType decorator.expected)

end

end Decorator

/--
Each name leads to the decorator that took it last. Decorators are known by the order in which they
came.
-/
structure DecoratorTable where
  decorators : List Decorator
  places : List (String × Nat)

namespace DecoratorTable

def empty : DecoratorTable := ⟨[], []⟩

/-- A name that is there already keeps its place in the order. -/
def assign (place : Nat) : List (String × Nat) → String → List (String × Nat)
  | [], name => [(name, place)]
  | entry :: entries, name =>
    if entry.1 = name then (name, place) :: entries else entry :: assign place entries name

def add (table : DecoratorTable) (decorator : Decorator) : DecoratorTable :=
  ⟨table.decorators ++ [decorator],
    decorator.names.foldl (assign table.decorators.length) table.places⟩

def ofList (decorators : List Decorator) : DecoratorTable := decorators.foldl add empty

theorem decorators_ofList (decorators : List Decorator) :
    (ofList decorators).decorators = decorators := by
  suffices h : ∀ table : DecoratorTable,
      (decorators.foldl add table).decorators = table.decorators ++ decorators from h empty
  induction decorators with
  | nil => exact fun table => (List.append_nil _).symm
  | cons decorator others ih =>
    intro table
    rw [List.foldl_cons, ih]
    exact List.append_cons _ _ _ ▸ rfl

def find? (table : DecoratorTable) (name : String) : Option Decorator := do
  table.decorators[← table.places.lookup name]?

/-- Those that some name still leads to, by their first names. -/
def sorted (table : DecoratorTable) : List Decorator :=
  let reached := (table.places.map (·.2)).eraseDups.filterMap (table.decorators[·]?)
  reached.mergeSort fun d e => d.name ≤ e.name

def call (table : DecoratorTable) (site : Site) (name : String) (value : Value) :
    Attempt String :=
  match table.find? name with
  | some decorator => decorator.call site value
  | none => Attempt.fail site (.unknownDecorator name)

end DecoratorTable

end Calculator
