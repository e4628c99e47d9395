import Mathlib.Data.List.Forall2
import Calculator.Proofs.Evaluation.Sequence

/-!
# Where a walk arrives

A walk arrives at a place in the tree if all that comes before it comes to something. To the nodes
above, nothing matters of what stands there but its site, its kind and what it comes to.
-/

namespace Calculator

open Grammar Evaluation

/-- Which child to go to, and of that one which child, and so on. -/
abbrev Place := List Nat

namespace Grammar.Tree

/-- The tree with another one at the place. -/
def replaceAt : Tree → Place → Tree → Tree
  | _, [], other => other
  | .leaf kind site, _ :: _, _ => .leaf kind site
  | .node rule site children, i :: place, other =>
    .node rule site (children.modify i fun child => child.replaceAt place other)

theorem children_replaceAt (tree : Tree) (i : Nat) (place : Place) (other : Tree) :
    (tree.replaceAt (i :: place) other).children =
      tree.children.modify i fun child => child.replaceAt place other := by
  cases tree with
  | leaf kind site => exact (List.modify_nil _ i).symm
  | node rule site children => rfl

end Grammar.Tree

namespace Evaluation

section

variable (setting : Setting) (deeper : Deeper)

/-- Whether a condition holds, as a conditional finds it out. -/
def test (condition : Tree) : Evaluation Bool := do
  ofAttempt (conditionOf condition.site (← walk setting deeper condition))

/-- Where a conditional goes on: at its condition, or at the branch that counts. -/
def intoBranch (i : Nat) (memory : Memory) : List Tree → Option (Tree × Memory)
  | [condition, _, yes, _, no] =>
    match i, test setting deeper condition memory with
    | 0, _ => some (condition, memory)
    | 2, (.ok true, after) => some (yes, after)
    | 4, (.ok false, after) => some (no, after)
    | _, _ => none
  | _ => none

/-- Where the walk through some nodes goes on once the first ones have come to something. -/
def intoChild (namesFirst : Bool) : Nat → List Tree → Memory → Option (Tree × Memory)
  | _, [], _ => none
  | 0, tree :: _, memory =>
    match bareName namesFirst tree with
    | some _ => none
    | none => some (tree, memory)
  | i + 1, tree :: trees, memory =>
    match (bareName namesFirst tree).elim (walk setting deeper tree) pure memory with
    | (.ok _, between) => intoChild false i trees between
    | _ => none

/-- Where the walk of a tree goes on. Function bodies are not walked. -/
def into (i : Nat) (memory : Memory) : Tree → Option (Tree × Memory)
  | .leaf .. | .node .definition .. | .node .decorator .. => none
  | .node .ternary _ children => intoBranch setting deeper i memory children
  | .node rule _ children =>
    match slip? rule with
    | some _ => none
    | none => intoChild setting deeper (startsWithName rule) i children memory

/-- The tree at the place and the memory that its walk starts with, if the walk arrives there. -/
def arrive : Place → Tree → Memory → Option (Tree × Memory)
  | [], tree, memory => some (tree, memory)
  | i :: place, tree, memory => do
    let (child, between) ← into setting deeper i memory tree
    arrive place child between

/-- What stands in a line after so many others, and the memory that the line starts with. -/
def intoLine : Nat → List Tree → Memory → Option (List Tree × Memory)
  | 0, .node .line _ children :: _, memory => some (children, memory)
  | i + 1, .node .line site children :: trees, memory =>
    match line setting deeper site children memory with
    | (.ok _, between) => intoLine i trees between
    | _ => none
  | _, _, _ => none

/-- The same for a place in a script, which starts with the line. -/
def arriveIn (tree : Tree) (memory : Memory) : Place → Option (Tree × Memory)
  | i :: j :: place => do
    let (children, start) ← intoLine setting deeper i tree.children memory
    let (child, between) ← intoChild setting deeper false j children start
    arrive setting deeper place child between
  | _ => none

end

/-! ## What a node sees of the nodes below -/

/-- The nodes above see no difference between the trees. -/
structure Alike (tree other : Tree) : Prop where
  site : tree.site = other.site
  leaf : ∀ kind, tree.isLeaf kind = other.isLeaf kind
  target : targetName [tree] = targetName [other]

namespace Alike

variable {tree other : Tree} {trees others : List Tree}

theorem refl (tree : Tree) : Alike tree tree := ⟨rfl, fun _ => rfl, rfl⟩

theorem input (h : Alike tree other) : tree.input = other.input := congrArg Site.text h.site

theorem bareName (h : Alike tree other) (namesFirst : Bool) :
    Evaluation.bareName namesFirst tree = Evaluation.bareName namesFirst other := by
  have heq (tree : Tree) : Evaluation.bareName namesFirst tree =
      if namesFirst && tree.isLeaf .identifier then
        some ⟨.mark .identifier tree.input, .default⟩ else none := by
    cases namesFirst
    · rfl
    · obtain ⟨kind, site⟩ | ⟨rule, site, children⟩ := tree
      · cases kind <;> rfl
      · rfl
  rw [heq, heq, h.leaf, h.input]

theorem forall₂_refl (trees : List Tree) : List.Forall₂ Alike trees trees :=
  List.forall₂_same.mpr fun tree _ => .refl tree

theorem firstName (h : List.Forall₂ Alike trees others) :
    Evaluation.firstName trees = Evaluation.firstName others := by
  cases h with
  | nil => rfl
  | cons h _ => exact h.input

theorem targetName (h : List.Forall₂ Alike trees others) :
    Evaluation.targetName trees = Evaluation.targetName others := by
  have heq (tree : Tree) (trees : List Tree) :
      Evaluation.targetName (tree :: trees) = Evaluation.targetName [tree] := by
    obtain ⟨kind, site⟩ | ⟨rule, site, children⟩ := tree
    · rfl
    · cases rule <;> rfl
  cases h with
  | nil => rfl
  | cons h _ => exact (heq _ _).trans (h.target.trans (heq _ _).symm)

theorem task (h : List.Forall₂ Alike trees others) (site : Site) (rule : Rule)
    (outcomes : List Outcome) :
    Evaluation.task site rule trees outcomes = Evaluation.task site rule others outcomes := by
  unfold Evaluation.task
  rw [firstName h, targetName h]

theorem refuseNames (h : List.Forall₂ Alike trees others) (outcomes : List Outcome) :
    Evaluation.refuseNames trees outcomes = Evaluation.refuseNames others outcomes := by
  induction h generalizing outcomes with
  | nil => rfl
  | cons h _ ih =>
    cases outcomes with
    | nil => rfl
    | cons outcome outcomes => rw [Evaluation.refuseNames, Evaluation.refuseNames, h.site, ih]

theorem checkNames (h : List.Forall₂ Alike trees others) (rule : Rule) (outcomes : List Outcome) :
    Evaluation.checkNames rule trees outcomes = Evaluation.checkNames rule others outcomes := by
  have hhelp : asksForHelp rule trees = asksForHelp rule others := by
    cases h with
    | nil => rfl
    | cons h _ => simp only [asksForHelp, List.head?_cons, Option.any_some, h.input]
  rw [Evaluation.checkNames, hhelp, refuseNames h, Evaluation.checkNames]

theorem lineEnd (h : List.Forall₂ Alike trees others) (site : Site) (rule : Rule) :
    Evaluation.lineEnd (.node rule site trees) = Evaluation.lineEnd (.node rule site others) := by
  simp only [Evaluation.lineEnd, Tree.children]
  induction h with
  | nil => rfl
  | cons h _ ih =>
    rw [List.find?_cons, List.find?_cons, h.leaf]
    split
    · exact h.input
    · exact ih

theorem node (h : List.Forall₂ Alike trees others) (site : Site) (rule : Rule) :
    Alike (.node rule site trees) (.node rule site others) := by
  refine ⟨rfl, fun _ => rfl, ?_⟩
  cases rule
  case indexedTarget => exact firstName h
  all_goals rfl

theorem branch (site : Site) (trees others : List Tree) :
    Alike (.node .ternary site trees) (.node .ternary site others) := ⟨rfl, fun _ => rfl, rfl⟩

theorem modify {i : Nat} {f : Tree → Tree} (h : ∀ tree ∈ trees[i]?, Alike (f tree) tree) :
    List.Forall₂ Alike (trees.modify i f) trees := by
  induction trees generalizing i with
  | nil => rw [List.modify_nil]; exact .nil
  | cons tree trees ih =>
    cases i with
    | zero => exact .cons (h tree rfl) (forall₂_refl trees)
    | succ i => exact .cons (.refl tree) (ih h)

end Alike

/-! ## Other trees that come to the same -/

section

variable {setting : Setting} {deeper : Deeper} {f : Tree → Tree} {child : Tree}
  {trees children : List Tree}
  {memory between : Memory} {namesFirst : Bool} {i : Nat}

theorem intoChild_zero
    (h : intoChild setting deeper namesFirst 0 trees memory = some (child, between)) :
    ∃ others, trees = child :: others ∧ bareName namesFirst child = none ∧ between = memory := by
  cases trees with
  | nil => cases h
  | cons tree trees =>
    rw [intoChild] at h
    split at h <;> cases h
    case h_2 hname => exact ⟨trees, rfl, hname, rfl⟩

theorem intoChild_succ
    (h : intoChild setting deeper namesFirst (i + 1) trees memory = some (child, between)) :
    ∃ tree others outcome middle, trees = tree :: others ∧
      (bareName namesFirst tree).elim (walk setting deeper tree) pure memory =
        (.ok outcome, middle) ∧
      intoChild setting deeper false i others middle = some (child, between) := by
  cases trees with
  | nil => cases h
  | cons tree trees =>
    rw [intoChild] at h
    split at h
    case h_1 outcome middle hfirst => exact ⟨tree, trees, outcome, middle, rfl, hfirst, h⟩
    case h_2 => cases h

theorem getElem?_of_intoChild
    (h : intoChild setting deeper namesFirst i trees memory = some (child, between)) :
    trees[i]? = some child := by
  induction i generalizing trees memory namesFirst with
  | zero =>
    obtain ⟨others, rfl, -, -⟩ := intoChild_zero h
    rfl
  | succ i ih =>
    obtain ⟨tree, others, outcome, middle, rfl, -, h⟩ := intoChild_succ h
    exact ih h

/-- A walk through some nodes sees of each of them only what it comes to in its turn. -/
theorem walkAll_modify (halike : Alike (f child) child)
    (hwalk : walk setting deeper (f child) between = walk setting deeper child between)
    (h : intoChild setting deeper namesFirst i trees memory = some (child, between)) :
    walkAll setting deeper namesFirst (trees.modify i f) memory =
      walkAll setting deeper namesFirst trees memory := by
  induction i generalizing trees memory namesFirst with
  | zero =>
    obtain ⟨others, rfl, hname, rfl⟩ := intoChild_zero h
    rw [List.modify_zero_cons, walkAll, walkAll, bind_apply, bind_apply, halike.bareName, hname,
      Option.elim_none, Option.elim_none, hwalk]
  | succ i ih =>
    obtain ⟨tree, others, outcome, middle, rfl, hfirst, h⟩ := intoChild_succ h
    rw [List.modify_succ_cons, walkAll, walkAll, bind_apply, bind_apply, hfirst]
    dsimp only
    rw [bind_apply, bind_apply, ih h]

theorem node_congr {others : List Tree} {below below' : Evaluation (List Outcome)} {site : Site}
    {rule : Rule} (h : List.Forall₂ Alike trees others) (hbelow : below memory = below' memory) :
    node setting deeper site rule trees below memory =
      node setting deeper site rule others below' memory := by
  unfold node
  cases slip? rule with
  | some slip => rfl
  | none =>
    simp only [bind_apply, hbelow, combine, Alike.task h, Alike.checkNames h]

/-! ## Steps of a walk -/

theorem walkTernary_apply (site : Site) (condition question yes colon no : Tree)
    (memory : Memory) :
    walkTernary setting deeper site [condition, question, yes, colon, no] memory =
      match test setting deeper condition memory with
      | (.ok holds, after) => walk setting deeper (if holds then yes else no) after
      | (.error failure, after) => (.error failure, after) := by
  have hassoc : walkTernary setting deeper site [condition, question, yes, colon, no] =
      test setting deeper condition >>= fun holds =>
        walk setting deeper (if holds then yes else no) := by
    rw [walkTernary, test, bind_assoc]
    congr 1
    funext outcome
    congr 1
    funext holds
    cases holds <;> rfl
  rw [hassoc, bind_apply]
  rcases test setting deeper condition memory with ⟨_ | holds, after⟩ <;> rfl

/-- A conditional goes on at its condition, and then at the branch that the condition is for. -/
theorem intoBranch_cases
    (h : intoBranch setting deeper i memory trees = some (child, between)) :
    ∃ condition question yes colon no, trees = [condition, question, yes, colon, no] ∧
      ((i = 0 ∧ child = condition ∧ between = memory) ∨
        (i = 2 ∧ child = yes ∧ test setting deeper condition memory = (.ok true, between)) ∨
        (i = 4 ∧ child = no ∧ test setting deeper condition memory = (.ok false, between))) := by
  unfold intoBranch at h
  split at h
  case h_2 => cases h
  case h_1 condition question yes colon no =>
    refine ⟨condition, question, yes, colon, no, rfl, ?_⟩
    split at h
    case h_1 =>
      cases h
      exact .inl ⟨rfl, rfl, rfl⟩
    case h_2 after htest =>
      cases h
      exact .inr (.inl ⟨rfl, rfl, htest⟩)
    case h_3 after htest =>
      cases h
      exact .inr (.inr ⟨rfl, rfl, htest⟩)
    case h_4 => cases h

theorem into_node {rule : Rule}
    (husual : rule ≠ .ternary ∧ rule ≠ .definition ∧ rule ≠ .decorator) (hslip : slip? rule = none)
    (site : Site) : into setting deeper i memory (.node rule site trees) =
      intoChild setting deeper (startsWithName rule) i trees memory := by
  obtain ⟨hternary, hdefinition, hdecorator⟩ := husual
  cases rule <;> first | rfl | contradiction

/-- A walk goes on in a conditional or in a node of the usual kind. -/
theorem into_cases {tree : Tree} (h : into setting deeper i memory tree = some (child, between)) :
    ∃ rule site trees, tree = .node rule site trees ∧
      ((rule = .ternary ∧ intoBranch setting deeper i memory trees = some (child, between)) ∨
        ((rule ≠ .ternary ∧ rule ≠ .definition ∧ rule ≠ .decorator) ∧ slip? rule = none ∧
          intoChild setting deeper (startsWithName rule) i trees memory =
            some (child, between))) := by
  unfold into at h
  split at h
  case h_1 | h_2 | h_3 => cases h
  case h_4 site trees => exact ⟨.ternary, site, trees, rfl, .inl ⟨rfl, h⟩⟩
  case h_5 rule site trees hdefinition hdecorator hternary =>
    refine ⟨rule, site, trees, rfl, .inr ⟨⟨hternary, hdefinition, hdecorator⟩, ?_⟩⟩
    split at h
    case h_1 => cases h
    case h_2 hslip => exact ⟨hslip, h⟩

/-- A child that comes to the same in its turn makes the whole tree come to the same. -/
theorem walk_modify {rule : Rule} {site : Site} (halike : Alike (f child) child)
    (hwalk : walk setting deeper (f child) between = walk setting deeper child between)
    (h : into setting deeper i memory (.node rule site trees) = some (child, between)) :
    Alike (.node rule site (trees.modify i f)) (.node rule site trees) ∧
      walk setting deeper (.node rule site (trees.modify i f)) memory =
        walk setting deeper (.node rule site trees) memory := by
  obtain ⟨_, _, _, heq, ⟨rfl, h⟩ | ⟨⟨hternary, hdefinition, hdecorator⟩, -, h⟩⟩ := into_cases h <;>
    cases heq
  case inl =>
    refine ⟨.branch site _ _, ?_⟩
    obtain ⟨condition, question, yes, colon, no, rfl, hcases⟩ := intoBranch_cases h
    change walkTernary setting deeper site _ memory = walkTernary setting deeper site _ memory
    rw [walkTernary_apply]
    rcases hcases with ⟨rfl, rfl, rfl⟩ | ⟨rfl, rfl, htest⟩ | ⟨rfl, rfl, htest⟩
    · have hsame : test setting deeper (f child) between = test setting deeper child between := by
        rw [test, test, bind_apply, bind_apply, hwalk, halike.site]
      change walkTernary setting deeper site [f child, question, yes, colon, no] between = _
      rw [walkTernary_apply, hsame]
    · change walkTernary setting deeper site [condition, question, f child, colon, no] memory = _
      rw [walkTernary_apply, htest]
      exact hwalk
    · change walkTernary setting deeper site [condition, question, yes, colon, f child] memory = _
      rw [walkTernary_apply, htest]
      exact hwalk
  case inr =>
    have hchildren : List.Forall₂ Alike (trees.modify i f) trees := by
      apply Alike.modify
      intro tree htree
      rw [getElem?_of_intoChild h] at htree
      cases htree
      exact halike
    refine ⟨.node hchildren site rule, ?_⟩
    rw [walk_node _ _ hternary hdefinition hdecorator,
      walk_node _ _ hternary hdefinition hdecorator]
    exact node_congr hchildren (walkAll_modify halike hwalk h)

theorem arrive_cons {place : Place} {tree target : Tree}
    (h : arrive setting deeper (i :: place) tree memory = some (target, between)) :
    ∃ child middle, into setting deeper i memory tree = some (child, middle) ∧
      arrive setting deeper place child middle = some (target, between) := by
  rw [arrive, Option.bind_eq_bind, Option.bind_eq_some_iff] at h
  obtain ⟨⟨child, middle⟩, hinto, h⟩ := h
  exact ⟨child, middle, hinto, h⟩

/-- The same for a tree at a place further down. -/
theorem walk_replaceAt {place rest : Place} {tree target other : Tree}
    (halike : Alike (target.replaceAt rest other) target)
    (hwalk : walk setting deeper (target.replaceAt rest other) between =
      walk setting deeper target between)
    (h : arrive setting deeper place tree memory = some (target, between)) :
    Alike (tree.replaceAt (place ++ rest) other) tree ∧
      walk setting deeper (tree.replaceAt (place ++ rest) other) memory =
        walk setting deeper tree memory := by
  induction place generalizing tree memory with
  | nil =>
    cases h
    exact ⟨halike, hwalk⟩
  | cons i place ih =>
    obtain ⟨child, middle, hinto, h⟩ := arrive_cons h
    obtain ⟨hchild, hsame⟩ := ih h
    obtain ⟨rule, site, trees, rfl, -⟩ := into_cases hinto
    exact walk_modify (f := (·.replaceAt (place ++ rest) other)) hchild hsame hinto

/-! ## Lines -/

theorem intoLine_zero (h : intoLine setting deeper 0 trees memory = some (children, between)) :
    ∃ site others, trees = .node .line site children :: others ∧ between = memory := by
  obtain _ | ⟨⟨kind, site⟩ | ⟨rule, site, parts⟩, others⟩ := trees
  · cases h
  · cases h
  · cases rule
    case line =>
      cases h
      exact ⟨site, others, rfl, rfl⟩
    all_goals cases h

theorem intoLine_succ
    (h : intoLine setting deeper (i + 1) trees memory = some (children, between)) :
    ∃ site parts others result middle, trees = .node .line site parts :: others ∧
      line setting deeper site parts memory = (.ok result, middle) ∧
      intoLine setting deeper i others middle = some (children, between) := by
  obtain _ | ⟨⟨kind, site⟩ | ⟨rule, site, parts⟩, others⟩ := trees
  · cases h
  · cases h
  · cases rule
    case line =>
      rw [intoLine] at h
      split at h
      case h_1 result middle hline => exact ⟨site, parts, others, result, middle, rfl, hline, h⟩
      case h_2 => cases h
    all_goals cases h

end

end Evaluation

end Calculator
