import Calculator.File.World
import Calculator.Function.Arguments

/-! # Functions and their table -/

namespace Calculator

/-- What a function needs beyond its arguments. -/
inductive Behaviour where
  | compute (f : Call → Attempt Value)
  | consult (f : World → Call → Attempt Value)
  /-- Needs a number drawn by chance. -/
  | draw (f : Nat → Call → Attempt Value)
  /-- Tells about functions and decorators. -/
  | help
  /-- Runs a text as a script. -/
  | run
  /-- Runs a file as a script. -/
  | runFile

/-- A function that is not written in a script. -/
structure Function where
  signature : Signature
  description : String
  category : Option String
  behaviour : Behaviour

namespace Function

def name (function : Function) : String := function.signature.name

def help (function : Function) : String := s!"{function.signature.text}: {function.description}"

/-- Where functions without a category are listed. -/
def commonCategory : String := "misc"

def listing (function : Function) : String :=
  match function.category with
  | none | some "" => commonCategory
  | some category => category

end Function

/-- Functions in the order in which their names came. -/
structure FunctionTable where
  functions : List Function

namespace FunctionTable

def find? (table : FunctionTable) (name : String) : Option Function :=
  table.functions.find? (·.name = name)

def put (function : Function) : List Function → List Function
  | [] => [function]
  | f :: fs => if f.name = function.name then function :: fs else f :: put function fs

/-- A function takes the place of another one with its name. -/
def add (table : FunctionTable) (function : Function) : FunctionTable :=
  ⟨put function table.functions⟩

/-- By name. -/
def sorted (table : FunctionTable) : List Function :=
  table.functions.mergeSort fun f g => f.name ≤ g.name

def categories (table : FunctionTable) : List String :=
  ((table.functions.map Function.listing).mergeSort fun a b => a ≤ b).eraseDups

def inCategory (table : FunctionTable) (category : String) : List Function :=
  table.sorted.filter (·.listing = category)

end FunctionTable

end Calculator
