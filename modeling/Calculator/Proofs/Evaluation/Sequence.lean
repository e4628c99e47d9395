import Calculator.Proofs.Evaluation.Tracking
import Calculator.Proofs.Grammar.Joining
import Calculator.Proofs.Relocation.Shift

/-!
# Scripts one after the other

A source that ends with a line end and another one behind it make one script, which does what the
first one does and then what the second one does. Where the first one fails, nothing of the second
one is done.
-/

namespace Calculator

open Grammar Evaluation

namespace ScriptResult

/-- The result of a script, from its lines. -/
def ofLines (trees : List Tree) (results : List LineResult) : ScriptResult :=
  ⟨results, joinLines trees results, (results.getLast?.map (·.value)).getD .none⟩

/-- The lines of both. A script without lines has no value of its own. -/
def append (first second : ScriptResult) : ScriptResult :=
  ⟨first.lines ++ second.lines, first.text ++ second.text,
    if second.lines.isEmpty then first.value else second.value⟩

end ScriptResult

variable {setting : Setting} {deeper : Deeper} {trees : List Tree} {results : List LineResult}

/-! ## Texts -/

namespace Evaluation

theorem joinLines_shift (offset : Nat) :
    joinLines (Tree.shiftAll offset trees) results = joinLines trees results := by
  rw [Tree.shiftAll_eq_relocateAll]
  exact joinLines_relocate (fun tree _ => .of_forall keeps_shift tree) results

theorem joinLines_append {others : List Tree} {more : List LineResult}
    (hlength : results.length = trees.length) :
    joinLines (trees ++ others) (results ++ more) =
      joinLines trees results ++ joinLines others more := by
  rw [joinLines, List.zipWith_append hlength.symm, String.join_append]
  rfl

end Evaluation

theorem ScriptResult.ofLines_append {others : List Tree} {more : List LineResult} (offset : Nat)
    (hlength : results.length = trees.length) :
    ofLines (trees ++ Tree.shiftAll offset others) (results ++ more) =
      (ofLines trees results).append (ofLines others more) := by
  have hvalue : (((results ++ more).getLast?.map (·.value)).getD .none) =
      if more.isEmpty then (results.getLast?.map (·.value)).getD .none
      else (more.getLast?.map (·.value)).getD .none := by
    cases more with
    | nil => simp
    | cons result more => simp [List.getLast?_append, List.getLast?_cons]
  rw [ofLines, joinLines_append hlength, joinLines_shift, hvalue]
  rfl

/-! ## Lines -/

namespace Evaluation

theorem lines_append (others : List Tree) :
    lines setting deeper (trees ++ others) = (do
      let results ← lines setting deeper trees
      return results ++ (← lines setting deeper others)) := by
  induction trees with
  | nil => simp [lines]
  | cons tree trees ih =>
    obtain ⟨kind, site⟩ | ⟨rule, site, children⟩ := tree
    · rfl
    · cases rule
      case line => simp [lines, ih]
      all_goals rfl

theorem length_of_lines {memory after : Memory}
    (h : lines setting deeper trees memory = (.ok results, after)) :
    results.length = trees.length := by
  induction trees generalizing memory results with
  | nil =>
    cases h
    rfl
  | cons tree trees ih =>
    obtain ⟨kind, site⟩ | ⟨rule, site, children⟩ := tree
    · cases h
    · cases rule
      case line =>
        rw [lines, bind_apply] at h
        rcases hline : line setting deeper site children memory with ⟨_ | result, middle⟩
        · rw [hline] at h
          cases h
        · rw [hline] at h
          dsimp only at h
          rw [bind_apply] at h
          rcases hothers : lines setting deeper trees middle with ⟨_ | others, last⟩
          · rw [hothers] at h
            cases h
          · rw [hothers] at h
            cases h
            exact congrArg (· + 1) (ih hothers)
      all_goals cases h

theorem evaluate_of_parse {source : String} {tree : Tree} (h : parse source = .ok tree)
    (memory : Memory) : evaluate setting source memory =
      (ScriptResult.ofLines tree.children <$>
        lines setting (deeperFor setting memory.depth) tree.children) memory := by
  rw [evaluate_apply, script, h]
  rfl

end Evaluation

section

variable {first second : String} {start last tree : Tree} {memory between : Memory}
  {before : ScriptResult}

/-- The lines of the first source, and then those of the second one further on. -/
theorem evaluate_append_apply (hends : endsLine first)
    (hparse : parse (first ++ second) = .ok tree) (hfirst : parse first = .ok start)
    (hsecond : parse second = .ok last) :
    evaluate setting (first ++ second) memory =
      (ScriptResult.ofLines (start.children ++ Tree.shiftAll first.length last.children) <$> (do
        let results ← lines setting (deeperFor setting memory.depth) start.children
        return results ++ (← lines setting (deeperFor setting memory.depth)
          (Tree.shiftAll first.length last.children)))) memory := by
  rw [evaluate_of_parse hparse, children_of_parse_append hends hparse hfirst hsecond, lines_append]

/-- From where the first source ends, the second one does what it does alone. -/
theorem evaluate_append_moved (hsetting : setting.Placeless) (hends : endsLine first)
    (hparse : parse (first ++ second) = .ok tree) (hfirst : parse first = .ok start)
    (hsecond : parse second = .ok last)
    (hstart : evaluate setting first memory = (.ok before, between)) :
    (evaluate setting (first ++ second) memory).2 = (evaluate setting second between).2 ∧
      Attempt.Moved first.length (before.append <$> (evaluate setting second between).1)
        (evaluate setting (first ++ second) memory).1 := by
  have hdepth := evaluate_depth setting first memory
  rw [hstart] at hdepth
  rw [evaluate_of_parse hfirst, map_apply] at hstart
  rcases hlines : lines setting (deeperFor setting memory.depth) start.children memory with
    ⟨_ | results, middle⟩ <;> rw [hlines] at hstart <;> cases hstart
  have hmoved : Evaluation.Moved first.length
      (lines setting (deeperFor setting memory.depth) last.children)
      (lines setting (deeperFor setting memory.depth)
        (Tree.shiftAll first.length last.children)) := .lines hsetting last.children
  obtain ⟨hafter, hresult⟩ := hmoved middle
  rw [evaluate_append_apply hends hparse hfirst hsecond, evaluate_of_parse hsecond, hdepth,
    map_apply, map_apply, bind_apply, hlines]
  dsimp only
  rw [bind_apply]
  rcases hlast : lines setting (deeperFor setting memory.depth) last.children middle with
    ⟨outcome, after⟩
  rcases hmore : lines setting (deeperFor setting memory.depth)
    (Tree.shiftAll first.length last.children) middle with ⟨outcome', after'⟩
  rw [hlast, hmore] at hafter hresult
  obtain rfl : after' = after := hafter
  cases hresult with
  | error h => exact ⟨rfl, .error h⟩
  | ok more =>
    have hsame : ScriptResult.ofLines (start.children ++ Tree.shiftAll first.length last.children)
        (results ++ more) = (ScriptResult.ofLines start.children results).append
          (ScriptResult.ofLines last.children more) :=
      ScriptResult.ofLines_append _ (length_of_lines hlines)
    refine ⟨rfl, ?_⟩
    change Attempt.Moved first.length (.ok _) (.ok (ScriptResult.ofLines
      (start.children ++ Tree.shiftAll first.length last.children) (results ++ more)))
    rw [hsame]
    exact .ok _

/--
Behind a source that ends with a newline, another source is read if it can be read alone, and the
script does what both do one after the other. What the second one fails with is what it fails with
alone, further on in the source.
-/
theorem evaluate_append (hsetting : setting.Placeless) (first second : String)
    (hends : endsLine first) :
    ((∃ tree, parse (first ++ second) = .ok tree) ↔
      (∃ tree, parse first = .ok tree) ∧ ∃ tree, parse second = .ok tree) ∧
    ∀ tree, parse (first ++ second) = .ok tree → ∀ memory,
      (∀ failure after, evaluate setting first memory = (.error failure, after) →
        evaluate setting (first ++ second) memory = (.error failure, after)) ∧
      ∀ before between, evaluate setting first memory = (.ok before, between) →
        (∀ failure after, evaluate setting second between = (.error failure, after) →
          ∃ moved, failure.Moved first.length moved ∧
            evaluate setting (first ++ second) memory = (.error moved, after)) ∧
        ∀ behind after, evaluate setting second between = (.ok behind, after) →
          evaluate setting (first ++ second) memory = (.ok (before.append behind), after) := by
  refine ⟨exists_parse_append_iff hends, fun tree hparse memory => ⟨?_, ?_⟩⟩
  all_goals
    obtain ⟨⟨start, hfirst⟩, last, hsecond⟩ := (exists_parse_append_iff hends).mp ⟨tree, hparse⟩
  · intro failure after hstart
    rw [evaluate_of_parse hfirst, map_apply] at hstart
    rw [evaluate_append_apply hends hparse hfirst hsecond, map_apply, bind_apply]
    rcases hlines : lines setting (deeperFor setting memory.depth) start.children memory with
      ⟨_ | results, middle⟩ <;> rw [hlines] at hstart <;> cases hstart
    rfl
  · intro before between hstart
    obtain ⟨hafter, hresult⟩ :=
      evaluate_append_moved hsetting hends hparse hfirst hsecond hstart
    rcases hboth : evaluate setting (first ++ second) memory with ⟨result, last⟩
    rw [hboth] at hafter hresult
    refine ⟨fun failure after hrun => ?_, fun behind after hrun => ?_⟩ <;>
      rw [hrun] at hafter hresult <;> cases hafter <;> cases hresult
    · exact ⟨_, ‹_›, rfl⟩
    · rfl

end

theorem evaluate_append_product :
    let setting : Setting := ⟨50, .builtin, .builtin, none, .still⟩
    setting.Placeless ∧ endsLine "x = 2\n" ∧ ∃ tree before between behind after,
      parse ("x = 2\n" ++ "x * 3") = .ok tree ∧
      evaluate setting "x = 2\n" .empty = (.ok before, between) ∧ before.text = "2\n" ∧
      evaluate setting "x * 3" between = (.ok behind, after) ∧ behind.text = "6" ∧
      evaluate setting ("x = 2\n" ++ "x * 3") .empty = (.ok (before.append behind), after) := by
  intro setting
  have hsetting : setting.Placeless := Setting.placeless_builtin 50 none .still
  have hends : endsLine "x = 2\n" := by decide +kernel
  have hread : (parse ("x = 2\n" ++ "x * 3")).toOption.isSome := by decide +kernel
  have hstart : (evaluate setting "x = 2\n" .empty).1.toOption.map ScriptResult.text =
      some "2\n" := by
    decide +kernel
  have hboth : ((evaluate setting "x = 2\n" >>= fun _ => evaluate setting "x * 3")
      Memory.empty).1.toOption.map ScriptResult.text = some "6" := by
    decide +kernel
  refine ⟨hsetting, hends, ?_⟩
  rw [bind_apply] at hboth
  rcases hfirst : evaluate setting "x = 2\n" .empty with ⟨_ | before, between⟩ <;>
    rw [hfirst] at hstart hboth
  · cases hstart
  rcases hsecond : evaluate setting "x * 3" between with ⟨_ | behind, after⟩ <;>
    simp only [hsecond] at hboth
  · cases hboth
  rcases hparse : parse ("x = 2\n" ++ "x * 3") with _ | tree <;> rw [hparse] at hread
  · cases hread
  have happend := evaluate_append hsetting "x = 2\n" "x * 3" hends
  exact ⟨tree, before, between, behind, after, rfl, rfl, Option.some.inj hstart, hsecond,
    Option.some.inj hboth, ((happend.2 tree hparse .empty).2 before between hfirst).2 _ _ hsecond⟩

end Calculator
