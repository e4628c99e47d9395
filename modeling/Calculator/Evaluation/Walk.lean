import Calculator.Evaluation.Assignment
import Calculator.Evaluation.Calling
import Calculator.Evaluation.Combination
import Calculator.Evaluation.Literal

/-!
# Walking a tree

The nodes below come first, from left to right, and all of them come to something before any is
looked at. Only of a conditional, just the branch that counts is walked, and a function body is not
walked at all.
-/

namespace Calculator.Evaluation

open Grammar

/-- What the source has left open or put where it cannot stand. -/
def slip? : Rule → Option Slip
  | .openArray => some .openArray
  | .openObject => some .openObject
  | .openParen => some .openParen
  | .strayDecorator => some .strayDecorator
  | .strayPostfix => some .strayPostfix
  | _ => none

/-- The first child is a name and no variable. -/
def startsWithName : Rule → Bool
  | .call | .assignment | .indexedTarget => true
  | _ => false

/-- Only help may be asked about a name that stands for nothing. -/
def asksForHelp (rule : Rule) (children : List Tree) : Bool :=
  rule = .call && children.head?.any (·.input = "help")

/-- No outcome may be a name that stands for nothing. -/
def refuseNames : List Tree → List Outcome → Attempt Unit
  | tree :: trees, outcome :: outcomes =>
    match outcome.name? with
    | some name => Attempt.fail tree.site (.unknownVariable name)
    | none => refuseNames trees outcomes
  | _, _ => .ok ()

/-- Looks at the nodes below before anything is done with them. -/
def checkNames (rule : Rule) (children : List Tree) (outcomes : List Outcome) : Attempt Unit :=
  if asksForHelp rule children then .ok () else refuseNames children outcomes

def argumentsOf (site : Site) : List Meaning → Attempt (List Value)
  | [.mark .rpar _] => .ok []
  | [inside, .mark .rpar _] => Combination.items site inside
  | _ => Combination.misshapen site

/-- The name that a call, a definition or an assignment starts with. -/
def firstName (children : List Tree) : String := (children.head?.map (·.input)).getD ""

/-- The variable that an assignment goes to. -/
def targetName : List Tree → String
  | .node .indexedTarget _ parts :: _ => firstName parts
  | children => firstName children

/-- What is left to do at a node once the nodes below have come to something. -/
inductive Task where
  | finish (outcome : Outcome)
  | assign (name : String) (v : Value)
  | assignIndexed (name : String) (index v : Value)
  | call (name : String) (arguments : List Value)

def task (site : Site) (rule : Rule) (children : List Tree) (outcomes : List Outcome) :
    Attempt Task := do
  let format := Combination.format rule outcomes
  match rule, outcomes.map Outcome.meaning with
  | .currency, [.mark _ symbol, .value v] => return .finish ⟨.value v, Format.ofSymbol symbol⟩
  | .arguments, meanings => return .finish ⟨.values (← Combination.operands site meanings), format⟩
  | .entry, [.value key, .mark _ _, .value v] => return .finish ⟨.entry key v, format⟩
  | .indexedTarget, [.mark _ _, .mark _ _, .value index, .mark _ _] =>
    return .finish ⟨.target index, format⟩
  | .assignment, [.mark _ _, .mark _ _, .value v] => return .assign (targetName children) v
  | .assignment, [.target index, .mark _ _, .value v] =>
    return .assignIndexed (targetName children) index v
  | .call, .mark _ _ :: .mark _ _ :: rest =>
    return .call (firstName children) (← argumentsOf site rest)
  | rule, meanings => return .finish ⟨.value (← Combination.value site rule meanings), format⟩

section

variable (setting : Setting) (deeper : Deeper)

def perform (site : Site) (format : Format) : Task → Evaluation Outcome
  | .finish outcome => pure outcome
  | .assign name v => do
    assign site name v
    return ⟨.value v, format⟩
  | .assignIndexed name index v => do
    assignIndexed site name index v
    return ⟨.value v, format⟩
  | .call name arguments => do
    return ⟨.value (← callName setting deeper site name arguments), format⟩

/-- What a node comes to once the nodes below have come to something. -/
def combine (site : Site) (rule : Rule) (children : List Tree) (outcomes : List Outcome) :
    Evaluation Outcome := do
  perform setting deeper site (Combination.format rule outcomes)
    (← ofAttempt (task site rule children outcomes))

/-- A name in a place where names are no variables. -/
def bareName (namesFirst : Bool) (tree : Tree) : Option Outcome :=
  match namesFirst, tree with
  | true, .leaf .identifier site => some ⟨.mark .identifier site.text, .default⟩
  | _, _ => none

/-- The name of a decorator, which is no variable. -/
def decoratorOutcome (site : Site) : List Tree → Attempt Outcome
  | [_, name] => .ok ⟨.decorator name.input, .default⟩
  | _ => Combination.misshapen site

/-- Whether a condition holds. A name that stands for nothing is no condition. -/
def conditionOf (site : Site) (outcome : Outcome) : Attempt Bool :=
  match outcome.meaning with
  | .value (.name name) => Attempt.fail site (.unknownVariable name)
  | .value v => .ok v.truth
  | _ => Combination.misshapen site

/-- A node of the usual kind. The walk through the nodes below is given. -/
def node (site : Site) (rule : Rule) (children : List Tree)
    (below : Evaluation (List Outcome)) : Evaluation Outcome :=
  match slip? rule with
  | some slip => fail site (.slip slip)
  | none => do
    let outcomes ← below
    ofAttempt (checkNames rule children outcomes)
    combine setting deeper site rule children outcomes

mutual

def walk : Tree → Evaluation Outcome
  | .leaf kind site => leaf kind site
  | .node .ternary site children => walkTernary site children
  | .node .definition site children => Outcome.ofValue <$> define site children
  | .node .decorator site children => ofAttempt (decoratorOutcome site children)
  | .node rule site children =>
    node setting deeper site rule children (walkAll (startsWithName rule) children)

/-- Only the branch that counts is walked. -/
def walkTernary (site : Site) : List Tree → Evaluation Outcome
  | [condition, _, yes, _, no] => do
    let outcome ← walk condition
    if ← ofAttempt (conditionOf condition.site outcome) then walk yes else walk no
  | _ => ofAttempt (Combination.misshapen site)

def walkAll (namesFirst : Bool) : List Tree → Evaluation (List Outcome)
  | [] => pure []
  | tree :: trees => do
    let outcome ← (bareName namesFirst tree).elim (walk tree) pure
    return outcome :: (← walkAll false trees)

end

theorem walk_node {rule : Rule} (hternary : rule ≠ .ternary) (hdefinition : rule ≠ .definition)
    (hdecorator : rule ≠ .decorator) (site : Site) (children : List Tree) :
    walk setting deeper (.node rule site children) =
      node setting deeper site rule children
        (walkAll setting deeper (startsWithName rule) children) := by
  cases rule <;> first | rfl | contradiction

end

end Calculator.Evaluation
