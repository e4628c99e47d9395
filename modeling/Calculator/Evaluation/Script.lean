import Calculator.Evaluation.Walk
import Calculator.Grammar.Parser

/-!
# Scripts

Lines are evaluated and written one after the other. Scripts inside of scripts go one level deeper,
and the number of levels left is what the recursion is on.
-/

namespace Calculator

open Grammar

structure LineResult where
  text : String
  value : Value
  format : Format

structure ScriptResult where
  lines : List LineResult
  /-- What the lines write, with the line ends of the source between them. -/
  text : String
  value : Value

namespace Evaluation

/-- Decorators that no extension can take over. -/
def isFixed (name : String) : Bool :=
  ["default", "dollars", "euros", "pounds", "yen"].contains name

def decorate (setting : Setting) (site : Site) (name : String) (value : Value) :
    Evaluation String :=
  let host := setting.host.filter fun host => (host.decorator? name).isSome
  match isFixed name, host with
  | false, some host => ofVisit (host.callDecorator site name value)
  | _, _ => ofAttempt (setting.decorators.call site name value)

/-- The first value of a line. An empty line has none. -/
def lineValue (outcomes : List Outcome) : Value :=
  (outcomes.findSome? fun outcome =>
    match outcome.meaning with
    | .value v => some v
    | _ => none).getD .none

/-- The decorator that the line names, or the one of its format. -/
def lineDecorator (format : Format) (outcomes : List Outcome) : String :=
  (outcomes.findSome? fun outcome =>
    match outcome.meaning with
    | .decorator name => some name
    | _ => none).getD format.decorator

def line (setting : Setting) (deeper : Deeper) (site : Site) (children : List Tree) :
    Evaluation LineResult := do
  let outcomes ← walkAll setting deeper false children
  ofAttempt (refuseNames children outcomes)
  let format := Outcome.formatOf outcomes
  let value := lineValue outcomes
  return ⟨← decorate setting site (lineDecorator format outcomes) value, value, format⟩

def lines (setting : Setting) (deeper : Deeper) : List Tree → Evaluation (List LineResult)
  | [] => pure []
  | .node .line site children :: trees => do
    return (← line setting deeper site children) :: (← lines setting deeper trees)
  | tree :: _ => fail tree.site (.internal "misshapen node")

/-- The newline at the end of a line. -/
def lineEnd (tree : Tree) : String :=
  ((tree.children.find? (·.isLeaf .newline)).map (·.input)).getD ""

def joinLines (trees : List Tree) (results : List LineResult) : String :=
  String.join (List.zipWith (fun tree result => result.text ++ lineEnd tree) trees results)

def script (setting : Setting) (deeper : Deeper) (source : String) : Evaluation ScriptResult := do
  let tree ← ofAttempt (parse source)
  let results ← lines setting deeper tree.children
  let value := (results.getLast?.map (·.value)).getD .none
  return ⟨results, joinLines tree.children results, value⟩

/-- Runs sources with so many levels below them. At the last level, no script starts another. -/
def deeperIn (setting : Setting) : Nat → Deeper
  | 0 => fun _ => throw (.error (.internal "no level is left") none)
  | room + 1 => fun source => (·.value) <$> script setting (deeperIn setting room) source

/-- How many levels there are below a depth. -/
def roomBelow (setting : Setting) (depth : Nat) : Nat := setting.maxDepth - 1 - depth

/-- Runs sources one level below a depth. -/
def deeperFor (setting : Setting) (depth : Nat) : Deeper :=
  deeperIn setting (roomBelow setting depth)

end Evaluation

def evaluate (setting : Setting) (source : String) : Evaluation ScriptResult := do
  Evaluation.script setting (Evaluation.deeperFor setting (← get).depth) source

namespace Evaluation

theorem evaluate_apply (setting : Setting) (source : String) (memory : Memory) :
    evaluate setting source memory =
      script setting (deeperFor setting memory.depth) source memory :=
  get_bind_apply _ memory

/-- One level down, a script is evaluated like any other. -/
theorem deeperFor_apply {setting : Setting} {depth : Nat} {memory : Memory}
    (hdepth : memory.depth = depth + 1) (hlimit : memory.depth < setting.maxDepth)
    (source : String) :
    deeperFor setting depth source memory = ((·.value) <$> evaluate setting source) memory := by
  have hroom : roomBelow setting depth = roomBelow setting memory.depth + 1 := by
    simp only [roomBelow]
    omega
  rw [deeperFor, hroom, deeperIn]
  simp only [map_apply, evaluate_apply, deeperFor]

end Evaluation

end Calculator
