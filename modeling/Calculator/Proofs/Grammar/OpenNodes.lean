import Calculator.Proofs.Grammar.Brackets

/-!
# Open brackets in trees

Nodes of brackets that are left open never give way to an only child, so a tree has as many of them
as its sketch: one for each bracket that is opened and not closed.
-/

namespace Calculator.Grammar

open Sketch

variable {chars : Array Char} {rule : Rule} {trees : List Tree} {b : Bracket} {source : String}
  {tree : Tree}

namespace Tree

def isNode (rule : Rule) : Tree → Bool
  | leaf .. => false
  | node r _ _ => r = rule

/-- How many nodes of the kind there are in the tree. -/
def nodeCount (rule : Rule) (tree : Tree) : Nat := tree.subtrees.countP (isNode rule)

def nodeCountOf (rule : Rule) (trees : List Tree) : Nat := (subtreesOf trees).countP (isNode rule)

@[simp] theorem nodeCountOf_nil : nodeCountOf rule [] = 0 := rfl

@[simp] theorem nodeCountOf_cons :
    nodeCountOf rule (tree :: trees) = tree.nodeCount rule + nodeCountOf rule trees :=
  List.countP_append

theorem nodeCountOf_append (first second : List Tree) :
    nodeCountOf rule (first ++ second) = nodeCountOf rule first + nodeCountOf rule second := by
  induction first with
  | nil => simp
  | cons tree trees ih =>
    rw [List.cons_append, nodeCountOf_cons, ih, nodeCountOf_cons, Nat.add_assoc]

theorem nodeCount_node (r : Rule) (site : Site) :
    (node r site trees).nodeCount rule = nodeCountOf rule trees + if r = rule then 1 else 0 := by
  simp only [nodeCount, subtrees, List.countP_cons, isNode, decide_eq_true_eq]
  rfl

/-- Nodes that may stay alone are still there when the others have given way. -/
theorem nodeCount_collapse (halone : rule.staysAlone) (r : Rule) :
    (collapse chars r trees).nodeCount rule =
      nodeCountOf rule trees + if r = rule then 1 else 0 := by
  unfold collapse
  split
  · split
    case isTrue => exact nodeCount_node r _
    case isFalse hgives =>
      have hother : r ≠ rule := fun heq => hgives (heq.symm ▸ halone)
      rw [if_neg hother]
      simp
  · exact nodeCount_node r _

end Tree

mutual

theorem nodeCount_ofSketch (halone : rule.staysAlone) : ∀ sketch : Sketch,
    (Tree.ofSketch chars sketch).nodeCount rule = sketch.nodes rule
  | .leaf _ => rfl
  | .node r parts => by
    rw [Tree.ofSketch, Tree.nodeCount_collapse halone, nodeCountOf_ofSketches halone parts,
      Sketch.nodes]

theorem nodeCountOf_ofSketches (halone : rule.staysAlone) : ∀ parts : List Sketch,
    Tree.nodeCountOf rule (Tree.ofSketches chars parts []) = Sketch.nodesOf rule parts
  | [] => rfl
  | sketch :: sketches => by
    have hothers := nodeCountOf_ofSketches halone sketches
    rw [Tree.ofSketches_eq, List.append_nil] at hothers
    rw [Tree.ofSketches, Tree.ofSketches_eq, Tree.nodeCountOf_append, hothers, Tree.nodeCountOf_cons,
      nodeCount_ofSketch halone sketch]
    rfl

end

theorem nodeCount_ofLines (halone : rule.staysAlone) (hscript : rule ≠ .script)
    (lines : List Sketch) :
    (Tree.ofLines chars lines).nodeCount rule = Sketch.nodesOf rule lines := by
  rw [Tree.ofLines, Tree.nodeCount_collapse halone, if_neg hscript.symm, Nat.add_zero]
  induction lines with
  | nil => rfl
  | cons line lines ih =>
    rw [List.map_cons, Tree.nodeCountOf_cons, ih, nodeCount_ofSketch halone, Sketch.nodesOf,
      Nat.add_comm]

/-- A tree has an open node for each bracket that is opened and not closed. -/
theorem count_of_parse (b : Bracket) (h : parse source = .ok tree) :
    count b.opening (lex source).tokens =
      count b.closing (lex source).tokens + tree.nodeCount b.openRule := by
  obtain ⟨tokens, lines, hlex, hread, rfl⟩ := parse_eq_ok.mp h
  have hnodes : (Tree.ofLines source.toList.toArray lines).nodeCount b.openRule = _ :=
    nodeCount_ofLines (by cases b <;> rfl) (by cases b <;> decide) lines
  rw [hlex, count_of_script b (script_of_readTokens hread), ← hnodes]
  rfl

end Calculator.Grammar
