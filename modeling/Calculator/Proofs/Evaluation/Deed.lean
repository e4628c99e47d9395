import Calculator.Evaluation.Walk

/-!
# What a tree is out to do

A tree says which variables it assigns, which functions it defines and which names it calls. What
stands in a function body does not count.
-/

namespace Calculator.Grammar

open Evaluation

inductive Deed where
  | assigns (name : String)
  | defines (name : String)
  | calls (name : String)
  deriving DecidableEq, Repr

namespace Tree

mutual

/-- The deeds outside of function bodies. -/
def deeds : Tree → List Deed
  | .leaf .. => []
  | .node .definition _ children => [.defines (firstName children)]
  | .node .assignment _ children => .assigns (targetName children) :: deedsOfAll children
  | .node .call _ children => .calls (firstName children) :: deedsOfAll children
  | .node _ _ children => deedsOfAll children

def deedsOfAll : List Tree → List Deed
  | [] => []
  | tree :: trees => deeds tree ++ deedsOfAll trees

end

theorem deedsOfAll_subset_deeds {rule : Rule} (h : rule ≠ .definition) (site : Site)
    (children : List Tree) : deedsOfAll children ⊆ (node rule site children).deeds := by
  cases rule <;> simp_all [deeds]

end Tree

end Calculator.Grammar

namespace Calculator.Evaluation

open Grammar

def Task.deed? : Task → Option Deed
  | .finish _ => none
  | .assign name _ | .assignIndexed name _ _ => some (.assigns name)
  | .call name _ => some (.calls name)

/-- What a node is left to do stands in the tree. -/
theorem deed_of_task {site : Site} {rule : Rule} {children : List Tree} {outcomes : List Outcome}
    {task : Task} (h : Evaluation.task site rule children outcomes = .ok task) {deed : Deed}
    (hdeed : deed ∈ task.deed?) : deed ∈ (Grammar.Tree.node rule site children).deeds := by
  unfold Evaluation.task at h
  dsimp only at h
  split at h
  case h_5 | h_6 =>
    cases h
    cases hdeed
    simp [Tree.deeds]
  case h_7 =>
    obtain ⟨arguments, -, h⟩ := Attempt.bind_eq_ok.mp h
    cases h
    cases hdeed
    simp [Tree.deeds]
  case h_2 | h_8 =>
    obtain ⟨_, -, h⟩ := Attempt.bind_eq_ok.mp h
    cases h
    cases hdeed
  all_goals
    cases h
    cases hdeed

end Calculator.Evaluation
