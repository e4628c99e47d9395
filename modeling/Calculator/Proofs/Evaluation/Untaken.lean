import Calculator.Proofs.Evaluation.Arrival

/-!
# Branches that are not taken

Where a conditional is reached and its condition holds, the other branch could be anything: the
script has the same lines, fails with the same error, and leaves the same behind.
-/

namespace Calculator

open Grammar Evaluation

/-- Runs a tree, whether or not there is a source that has it. -/
def evaluateTree (setting : Setting) (tree : Tree) : Evaluation ScriptResult := do
  let deeper := deeperFor setting (← get).depth
  ScriptResult.ofLines tree.children <$> lines setting deeper tree.children

variable {setting : Setting} {deeper : Deeper} {source : String} {trees children : List Tree}
  {tree target other : Tree} {memory start between : Memory} {i : Nat} {f : Tree → Tree}
  {place rest : Place}

namespace Evaluation

theorem evaluateTree_apply (setting : Setting) (tree : Tree) (memory : Memory) :
    evaluateTree setting tree memory = (ScriptResult.ofLines tree.children <$>
      lines setting (deeperFor setting memory.depth) tree.children) memory :=
  get_bind_apply _ memory

theorem evaluate_eq_evaluateTree (h : parse source = .ok tree) (memory : Memory) :
    evaluate setting source memory = evaluateTree setting tree memory := by
  rw [evaluate_of_parse h, evaluateTree_apply]

/-! ## Lines -/

theorem line_congr {others : List Tree} (h : List.Forall₂ Alike trees others)
    (hwalk : walkAll setting deeper false trees memory =
      walkAll setting deeper false others memory) (site : Site) :
    line setting deeper site trees memory = line setting deeper site others memory := by
  unfold line
  simp only [bind_apply, hwalk, Alike.refuseNames h]

/-- Another line in its place that comes to the same and ends in the same way. -/
structure SameLine (setting : Setting) (deeper : Deeper) (children : List Tree) (start : Memory)
    (f : Tree → Tree) : Prop where
  line : ∀ site, ∃ others, f (.node .line site children) = .node .line site others ∧
    line setting deeper site others start = line setting deeper site children start
  stop : ∀ site, lineEnd (f (.node .line site children)) = lineEnd (.node .line site children)

theorem lines_modify (hsame : SameLine setting deeper children start f)
    (h : intoLine setting deeper i trees memory = some (children, start)) :
    lines setting deeper (trees.modify i f) memory = lines setting deeper trees memory ∧
      ∀ results, joinLines (trees.modify i f) results = joinLines trees results := by
  induction i generalizing trees memory with
  | zero =>
    obtain ⟨site, others, rfl, rfl⟩ := intoLine_zero h
    obtain ⟨parts, hparts, hline⟩ := hsame.line site
    have hstop := hsame.stop site
    rw [List.modify_zero_cons]
    constructor
    · rw [hparts, lines, lines, bind_apply, bind_apply, hline]
    · intro results
      cases results with
      | nil => rfl
      | cons result results =>
        simp only [joinLines, List.zipWith_cons_cons, hstop]
  | succ i ih =>
    obtain ⟨site, parts, others, result, middle, rfl, hline, hothers⟩ := intoLine_succ h
    obtain ⟨hlines, hjoin⟩ := ih hothers
    rw [List.modify_succ_cons]
    constructor
    · rw [lines, lines, bind_apply, bind_apply, hline]
      dsimp only
      rw [bind_apply, bind_apply, hlines]
    · intro results
      cases results with
      | nil => rfl
      | cons result results =>
        have hjoin := hjoin results
        simp only [joinLines, List.zipWith_cons_cons, String.join_cons] at hjoin ⊢
        rw [hjoin]

/-! ## Scripts -/

/-- Of the tree at a place, the script sees only what it comes to. -/
theorem evaluateTree_replaceAt (halike : Alike (target.replaceAt rest other) target)
    (hwalk : walk setting (deeperFor setting memory.depth) (target.replaceAt rest other) between =
      walk setting (deeperFor setting memory.depth) target between)
    (h : arriveIn setting (deeperFor setting memory.depth) tree memory place =
      some (target, between)) :
    evaluateTree setting (tree.replaceAt (place ++ rest) other) memory =
      evaluateTree setting tree memory := by
  obtain _ | ⟨i, _ | ⟨j, place⟩⟩ := place
  · cases h
  · cases h
  simp only [arriveIn, Option.bind_eq_bind, Option.bind_eq_some_iff] at h
  obtain ⟨⟨children, start⟩, hline, ⟨child, middle⟩, hchild, harrive⟩ := h
  obtain ⟨hsame, hcomes⟩ := walk_replaceAt halike hwalk harrive
  have hchildren : List.Forall₂ Alike
      (children.modify j fun child => child.replaceAt (place ++ rest) other) children := by
    apply Alike.modify
    intro tree htree
    rw [getElem?_of_intoChild hchild] at htree
    cases htree
    exact hsame
  have hwalks := walkAll_modify (f := fun child => child.replaceAt (place ++ rest) other) hsame
    hcomes hchild
  have hmodify := lines_modify (f := fun line => line.replaceAt (j :: (place ++ rest)) other)
    ⟨fun site => ⟨_, rfl, line_congr hchildren hwalks site⟩,
      fun site => Alike.lineEnd hchildren site .line⟩ hline
  have hresult : ScriptResult.ofLines
      (tree.children.modify i fun line => line.replaceAt (j :: (place ++ rest)) other) =
      ScriptResult.ofLines tree.children := by
    funext results
    rw [ScriptResult.ofLines, hmodify.2, ScriptResult.ofLines]
  rw [evaluateTree_apply, evaluateTree_apply, List.cons_append, List.cons_append,
    Tree.children_replaceAt, map_apply, map_apply, hmodify.1, hresult]

/-- The branch that a conditional does not take when its condition comes to this. -/
def untaken (holds : Bool) : Nat := if holds then 4 else 2

theorem walk_untaken {site : Site} {condition question yes colon no : Tree} {holds : Bool}
    {after : Memory} (h : test setting deeper condition memory = (.ok holds, after))
    (other : Tree) :
    let conditional : Tree := .node .ternary site [condition, question, yes, colon, no]
    walk setting deeper (conditional.replaceAt [untaken holds] other) memory =
      walk setting deeper conditional memory := by
  intro conditional
  cases holds with
  | true =>
    change walkTernary setting deeper site [condition, question, yes, colon, other] memory =
      walkTernary setting deeper site [condition, question, yes, colon, no] memory
    rw [walkTernary_apply, walkTernary_apply, h]
    rfl
  | false =>
    change walkTernary setting deeper site [condition, question, other, colon, no] memory =
      walkTernary setting deeper site [condition, question, yes, colon, no] memory
    rw [walkTernary_apply, walkTernary_apply, h]
    rfl

end Evaluation

/--
Where a script gets to a conditional and its condition comes to something, the branch that is not
taken may be any tree: the results are the same, and so are the error and the memory afterwards.
-/
theorem evaluate_untaken (hparse : parse source = .ok tree) {site : Site}
    {condition question yes colon no : Tree}
    (hreached : arriveIn setting (deeperFor setting memory.depth) tree memory place =
      some (.node .ternary site [condition, question, yes, colon, no], between))
    {holds : Bool} {after : Memory}
    (htest : test setting (deeperFor setting memory.depth) condition between = (.ok holds, after))
    (other : Tree) :
    evaluateTree setting (tree.replaceAt (place ++ [untaken holds]) other) memory =
      evaluate setting source memory := by
  have halike : Alike (Tree.replaceAt (.node .ternary site [condition, question, yes, colon, no])
      [untaken holds] other) (.node .ternary site [condition, question, yes, colon, no]) :=
    .branch site _ _
  rw [evaluate_eq_evaluateTree hparse]
  exact evaluateTree_replaceAt halike (walk_untaken htest other) hreached

/-- Neither the name that stands for nothing nor the open array in its place is ever looked at. -/
theorem evaluate_untaken_open :
    let setting : Setting := ⟨50, .builtin, .builtin, none, .still⟩
    let deeper := deeperFor setting Memory.empty.depth
    let condition : Tree := .leaf .boolean ⟨"true", 4⟩
    let conditional : Tree := .node .ternary ⟨"true ? 2 : y", 4⟩ [condition,
      .leaf .question ⟨"?", 9⟩, .leaf .int ⟨"2", 11⟩, .leaf .colon ⟨":", 13⟩,
      .leaf .identifier ⟨"y", 15⟩]
    let unclosed : Tree := .node .openArray ⟨"[1", 15⟩
      [.leaf .lsqb ⟨"[", 15⟩, .leaf .int ⟨"1", 16⟩]
    ∃ tree, parse "x = true ? 2 : y" = .ok tree ∧
      arriveIn setting deeper tree .empty [0, 0, 2] = some (conditional, .empty) ∧
      test setting deeper condition .empty = (.ok true, .empty) ∧
      evaluateTree setting (tree.replaceAt [0, 0, 2, 4] unclosed) .empty =
        evaluate setting "x = true ? 2 : y" .empty := by
  intro setting deeper condition conditional unclosed
  let tree : Tree := .node .script ⟨"x = true ? 2 : y", 0⟩
    [.node .line ⟨"x = true ? 2 : y", 0⟩ [.node .assignment ⟨"x = true ? 2 : y", 0⟩
      [.leaf .identifier ⟨"x", 0⟩, .leaf .equal ⟨"=", 2⟩, conditional]]]
  have hparse : parse "x = true ? 2 : y" = .ok tree := by decide +kernel
  have hreached : arriveIn setting deeper tree .empty [0, 0, 2] = some (conditional, .empty) := rfl
  have htest : test setting deeper condition .empty = (.ok true, .empty) := rfl
  exact ⟨tree, hparse, hreached, htest, evaluate_untaken hparse hreached htest unclosed⟩

end Calculator
