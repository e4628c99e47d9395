import Calculator.Arithmetic.Comparison
import Calculator.Arithmetic.Operator
import Calculator.Evaluation.Outcome
import Calculator.Grammar.Grammar
import Calculator.Value.Indexing

/-!
# Operators of a tree

How the values below a node make the value of the node. The grammar sees to it that nothing else is
there.
-/

namespace Calculator

open Grammar

def Operator.ofTerminal? : Terminal → Option Operator
  | .plus => some .add
  | .minus => some .subtract
  | .star => some .multiply
  | .slash => some .divide
  | .percent => some .remainder
  | .pow => some .power
  | .shiftLeft => some .shiftLeft
  | .shiftRight => some .shiftRight
  | .amp => some .bitAnd
  | .pipe => some .bitOr
  | .caret => some .bitXor
  | _ => none

def Comparator.ofTerminal? : Terminal → Option Comparator
  | .eq => some .eq
  | .ne => some .ne
  | .lt => some .lt
  | .gt => some .gt
  | .le => some .le
  | .ge => some .ge
  | _ => none

namespace Combination

/-- A node that the grammar does not make. -/
def misshapen {α : Type} (site : Site) : Attempt α := Attempt.fail site (.internal "misshapen node")

/-- From left to right. -/
def foldOperators (site : Site) (left : Value) : List Meaning → Attempt Value
  | [] => .ok left
  | .mark kind _ :: .value right :: rest =>
    match Operator.ofTerminal? kind with
    | some operator => do foldOperators site (← operator.apply site left right) rest
    | none => misshapen site
  | _ => misshapen site

def foldProduct (site : Site) (left : Value) : List Meaning → Attempt Value
  | [] => .ok left
  | .value right :: rest => do
    foldProduct site (← Operator.apply site .multiply left right) rest
  | _ => misshapen site

/-- Each comparison takes the truth of the one before as its left side. -/
def foldComparisons (site : Site) (left : Value) : List Meaning → Attempt Value
  | [] => .ok left
  | .mark kind _ :: .value right :: rest =>
    match Comparator.ofTerminal? kind with
    | some comparator => do
      foldComparisons site (.bool (← comparator.compare site left right)) rest
    | none => misshapen site
  | _ => misshapen site

/-- Every other part is a value. -/
def operands (site : Site) : List Meaning → Attempt (List Value)
  | [.value v] => .ok [v]
  | .value v :: .mark _ _ :: rest => do return v :: (← operands site rest)
  | _ => misshapen site

/-- Signs, and the operand after them. The one next to the operand comes first. -/
def signed (site : Site) : List Meaning → Attempt Value
  | [.value v] => .ok v
  | .mark .minus _ :: rest => do Arithmetic.negate site (← signed site rest)
  | .mark .tilde _ :: rest => do Arithmetic.complement site (← signed site rest)
  | _ => misshapen site

def factorials (site : Site) (value : Value) : List Meaning → Attempt Value
  | [] => .ok value
  | .mark .bang _ :: rest => do factorials site (← Arithmetic.factorial site value) rest
  | _ => misshapen site

def indexes (site : Site) (value : Value) : List Meaning → Attempt Value
  | [] => .ok value
  | .mark .lsqb _ :: .value index :: .mark .rsqb _ :: rest => do
    indexes site (← Value.lookup site value index) rest
  | _ => misshapen site

def items (site : Site) : Meaning → Attempt (List Value)
  | .value v => .ok [v]
  | .values vs => .ok vs
  | _ => misshapen site

/-- Entries with commas between them. A key that comes again keeps its first place. -/
def insertEntries (site : Site) (entries : Entries) : List Meaning → Attempt Entries
  | [.mark .rbrace _] => .ok entries
  | .mark .comma _ :: rest => insertEntries site entries rest
  | .entry key value :: rest => insertEntries site (entries.insert key value) rest
  | _ => misshapen site

/-- The value of a node whose value depends on nothing but those below it. -/
def value (site : Site) (rule : Rule) (meanings : List Meaning) : Attempt Value :=
  match rule, meanings with
  | .sum, .value v :: rest | .product, .value v :: rest | .power, .value v :: rest
  | .shift, .value v :: rest | .bitAnd, .value v :: rest | .bitXor, .value v :: rest
  | .bitOr, .value v :: rest => foldOperators site v rest
  | .impliedProduct, .value v :: rest => foldProduct site v rest
  | .comparison, .value v :: rest => foldComparisons site v rest
  | .conjunction, meanings => do return .bool ((← operands site meanings).all (·.truth))
  | .disjunction, meanings => do return .bool ((← operands site meanings).any (·.truth))
  | .prefixed, meanings => signed site meanings
  | .postfixed, .value v :: rest => factorials site v rest
  | .indexed, .value v :: rest => indexes site v rest
  | .group, [.mark .lpar _, .value v, .mark .rpar _] => .ok v
  | .array, [.mark .lsqb _, .mark .rsqb _] => .ok (.array [])
  | .array, [.mark .lsqb _, inside, .mark .rsqb _] => do return .array (← items site inside)
  | .object, .mark .lbrace _ :: rest => do return .object (← insertEntries site [] rest)
  | _, _ => misshapen site

/-- Truths have no currency. -/
def format (rule : Rule) (outcomes : List Outcome) : Format :=
  match rule with
  | .comparison | .conjunction | .disjunction => .default
  | _ => Outcome.formatOf outcomes

end Combination

end Calculator
