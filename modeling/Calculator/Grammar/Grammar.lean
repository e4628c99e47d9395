import Calculator.Grammar.Terminal

/-!
# The grammar of a line

Each nonterminal has alternatives, the preferred ones first. A part of an alternative is a symbol or
a repetition: one or more rounds of a few symbols.
-/

namespace Calculator.Grammar

/-- Each one comes after those that one of its alternatives may start with. -/
inductive Nonterminal where
  | group | array | object | currency | openArray | openObject | openParen | call
  | atom | primary | indexed | postfixed | strayPostfix | prefixed | power
  | impliedPrimary | impliedIndexed | impliedPostfixed | impliedOperand | impliedProduct
  | product | sum | shift | bitAnd | bitXor | bitOr | comparator | comparison
  | conjunction | disjunction | ternary
  | indexedTarget | assignment | definition | expression | arguments | entry
  | decorator | strayDecorator | lineBody
  deriving DecidableEq, Repr

inductive Repetition where
  | indexes | bangs | signs | powers | impliedOperands
  | products | sums | shifts | bitAnds | bitXors | bitOrs
  | comparisons | conjunctions | disjunctions
  | moreArguments | moreEntries | moreParameters
  deriving DecidableEq, Repr

inductive Symbol where
  | terminal (t : Terminal)
  | nonterminal (n : Nonterminal)
  deriving DecidableEq, Repr

inductive Part where
  | one (symbol : Symbol)
  | many (repetition : Repetition)
  deriving DecidableEq, Repr

abbrev Part.leaf (terminal : Terminal) : Part := .one (.terminal terminal)

abbrev Part.node (nonterminal : Nonterminal) : Part := .one (.nonterminal nonterminal)

/-- What one round may be made of. -/
def Repetition.rounds : Repetition → List (List Symbol)
  | indexes => [[.terminal .lsqb, .nonterminal .expression, .terminal .rsqb]]
  | bangs => [[.terminal .bang]]
  | signs => [[.terminal .minus], [.terminal .tilde]]
  | powers => [[.terminal .pow, .nonterminal .prefixed]]
  | impliedOperands => [[.nonterminal .impliedOperand]]
  | products =>
    [[.terminal .star, .nonterminal .impliedProduct],
      [.terminal .slash, .nonterminal .impliedProduct],
      [.terminal .percent, .nonterminal .impliedProduct]]
  | sums =>
    [[.terminal .plus, .nonterminal .product], [.terminal .minus, .nonterminal .product]]
  | shifts =>
    [[.terminal .shiftLeft, .nonterminal .sum], [.terminal .shiftRight, .nonterminal .sum]]
  | bitAnds => [[.terminal .amp, .nonterminal .shift]]
  | bitXors => [[.terminal .caret, .nonterminal .bitAnd]]
  | bitOrs => [[.terminal .pipe, .nonterminal .bitXor]]
  | comparisons => [[.nonterminal .comparator, .nonterminal .bitOr]]
  | conjunctions => [[.terminal .and, .nonterminal .comparison]]
  | disjunctions => [[.terminal .or, .nonterminal .conjunction]]
  | moreArguments => [[.terminal .comma, .nonterminal .expression]]
  | moreEntries => [[.terminal .comma, .nonterminal .entry]]
  | moreParameters => [[.terminal .comma, .terminal .identifier]]

open Repetition in
/-- The preferred alternatives come first. -/
def Nonterminal.alternatives : Nonterminal → List (List Part)
  | group => [[.leaf .lpar, .node expression, .leaf .rpar]]
  | array => [[.leaf .lsqb, .node arguments, .leaf .rsqb], [.leaf .lsqb, .leaf .rsqb]]
  | object =>
    [[.leaf .lbrace, .node entry, .many moreEntries, .leaf .rbrace],
      [.leaf .lbrace, .node entry, .leaf .rbrace],
      [.leaf .lbrace, .leaf .rbrace]]
  | currency =>
    [[.leaf .currencySymbol, .leaf .sci], [.leaf .currencySymbol, .leaf .float],
      [.leaf .currencySymbol, .leaf .int]]
  | openArray => [[.leaf .lsqb, .node arguments], [.leaf .lsqb]]
  | openObject =>
    [[.leaf .lbrace, .node entry, .many moreEntries], [.leaf .lbrace, .node entry],
      [.leaf .lbrace]]
  | openParen =>
    [[.leaf .lpar, .node expression], [.leaf .identifier, .leaf .lpar, .node arguments],
      [.leaf .identifier, .leaf .lpar]]
  | call =>
    [[.leaf .identifier, .leaf .lpar, .node arguments, .leaf .rpar],
      [.leaf .identifier, .leaf .lpar, .leaf .rpar]]
  | atom =>
    [[.node group], [.node array], [.node object], [.node currency],
      [.leaf .hex], [.leaf .bin], [.leaf .oct], [.leaf .sci], [.leaf .float], [.leaf .int],
      [.leaf .boolean], [.leaf .string], [.leaf .identifier], [.leaf .openLiteral],
      [.node openArray], [.node openObject], [.node openParen]]
  | primary => [[.node call], [.node atom]]
  | indexed => [[.node primary, .many indexes], [.node primary]]
  | postfixed => [[.node indexed, .many bangs], [.node indexed]]
  | strayPostfix => [[.leaf .bang, .node prefixed]]
  | prefixed => [[.many signs, .node postfixed], [.node postfixed], [.node strayPostfix]]
  | power => [[.node prefixed, .many powers], [.node prefixed]]
  | impliedPrimary => [[.node group], [.leaf .identifier], [.node call]]
  | impliedIndexed => [[.node impliedPrimary], [.node impliedPrimary, .many indexes]]
  | impliedPostfixed => [[.node impliedIndexed], [.node impliedIndexed, .many bangs]]
  | impliedOperand => [[.node impliedPostfixed], [.node impliedPostfixed, .many powers]]
  | impliedProduct => [[.node power, .many impliedOperands], [.node power]]
  | product => [[.node impliedProduct, .many products], [.node impliedProduct]]
  | sum => [[.node product, .many sums], [.node product]]
  | shift => [[.node sum, .many shifts], [.node sum]]
  | bitAnd => [[.node shift, .many bitAnds], [.node shift]]
  | bitXor => [[.node bitAnd, .many bitXors], [.node bitAnd]]
  | bitOr => [[.node bitXor, .many bitOrs], [.node bitXor]]
  | comparator => [[.leaf .eq], [.leaf .ne], [.leaf .le], [.leaf .ge], [.leaf .lt], [.leaf .gt]]
  | comparison => [[.node bitOr, .many comparisons], [.node bitOr]]
  | conjunction => [[.node comparison, .many conjunctions], [.node comparison]]
  | disjunction => [[.node conjunction, .many disjunctions], [.node conjunction]]
  | ternary =>
    [[.node disjunction],
      [.node disjunction, .leaf .question, .node ternary, .leaf .colon, .node ternary]]
  | indexedTarget => [[.leaf .identifier, .leaf .lsqb, .node expression, .leaf .rsqb]]
  | assignment =>
    [[.leaf .identifier, .leaf .equal, .node expression],
      [.node indexedTarget, .leaf .equal, .node expression]]
  | definition =>
    [[.leaf .identifier, .leaf .lpar, .leaf .identifier, .many moreParameters, .leaf .rpar,
        .leaf .equal, .node expression],
      [.leaf .identifier, .leaf .lpar, .leaf .identifier, .leaf .rpar, .leaf .equal,
        .node expression],
      [.leaf .identifier, .leaf .lpar, .leaf .rpar, .leaf .equal, .node expression]]
  | expression => [[.node assignment], [.node definition], [.node ternary]]
  | arguments => [[.node expression, .many moreArguments], [.node expression]]
  | entry => [[.node ternary, .leaf .colon, .node ternary]]
  | decorator => [[.leaf .atSign, .leaf .identifier]]
  | strayDecorator =>
    [[.node decorator, .node expression], [.node decorator],
      [.node expression, .node decorator, .node expression]]
  | lineBody =>
    [[.node expression, .node decorator], [.node expression],
      [.node expression, .leaf .openLine], [.node strayDecorator]]

/-- All of them, in their order. -/
def Nonterminal.all : List Nonterminal :=
  [group, array, object, currency, openArray, openObject, openParen, call, atom, primary, indexed,
    postfixed, strayPostfix, prefixed, power, impliedPrimary, impliedIndexed, impliedPostfixed,
    impliedOperand, impliedProduct, product, sum, shift, bitAnd, bitXor, bitOr, comparator,
    comparison, conjunction, disjunction, ternary, indexedTarget, assignment, definition,
    expression, arguments, entry, decorator, strayDecorator, lineBody]

/-! ## Inner nodes of a tree -/

inductive Rule where
  | script | line | decorator | strayDecorator
  | assignment | indexedTarget | definition | ternary
  | disjunction | conjunction | comparison | bitOr | bitXor | bitAnd | shift | sum | product
  | impliedProduct | power | prefixed | strayPostfix | postfixed | indexed
  | call | arguments | group | array | object | entry | currency
  | openArray | openObject | openParen
  deriving DecidableEq, Repr

namespace Rule

def name : Rule → String
  | script => "script" | line => "line" | decorator => "decorator"
  | strayDecorator => "error_unexpected_decorator"
  | assignment => "assignment_expression" | indexedTarget => "index_assignment_prefix"
  | definition => "function_assignment" | ternary => "ternary_expression"
  | disjunction => "bool_or_expression" | conjunction => "bool_and_expression"
  | comparison => "bool_cmp_expression" | bitOr => "or_expression" | bitXor => "xor_expression"
  | bitAnd => "and_expression" | shift => "sh_expression" | sum => "as_expression"
  | product => "md_expression" | impliedProduct => "implied_mul_expression"
  | power => "power_expression" | prefixed => "prefix_unary_expression"
  | strayPostfix => "error_unexpected_postfix" | postfixed => "postfix_unary_expression"
  | indexed => "index_expression" | call => "call_expression" | arguments => "expression_list"
  | group => "term" | array => "array" | object => "object" | entry => "object_entry"
  | currency => "currency" | openArray => "error_unterminated_array"
  | openObject => "error_unterminated_object" | openParen => "error_unterminated_paren"

/-- A node of another kind gives way to its only child. -/
def staysAlone : Rule → Bool
  | script | line | strayDecorator | strayPostfix | openArray | openObject | openParen => true
  | _ => false

end Rule

/-- The node that a nonterminal makes. Without one, its children go to the node above. -/
def Nonterminal.rule? : Nonterminal → Option Rule
  | group => some .group
  | array => some .array
  | object => some .object
  | currency => some .currency
  | openArray => some .openArray
  | openObject => some .openObject
  | openParen => some .openParen
  | call => some .call
  | indexed | impliedIndexed => some .indexed
  | postfixed | impliedPostfixed => some .postfixed
  | power | impliedOperand => some .power
  | strayPostfix => some .strayPostfix
  | prefixed => some .prefixed
  | impliedProduct => some .impliedProduct
  | product => some .product
  | sum => some .sum
  | shift => some .shift
  | bitAnd => some .bitAnd
  | bitXor => some .bitXor
  | bitOr => some .bitOr
  | comparison => some .comparison
  | conjunction => some .conjunction
  | disjunction => some .disjunction
  | ternary => some .ternary
  | indexedTarget => some .indexedTarget
  | assignment => some .assignment
  | definition => some .definition
  | arguments => some .arguments
  | entry => some .entry
  | decorator => some .decorator
  | strayDecorator => some .strayDecorator
  | atom | primary | impliedPrimary | comparator | expression | lineBody => none

end Calculator.Grammar
