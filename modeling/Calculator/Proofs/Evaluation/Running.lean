import Calculator.Function.Builtins
import Calculator.Proofs.Evaluation.Expression
import Calculator.Proofs.Evaluation.Quotation
import Calculator.Proofs.Function.Builtin

/-!
# Scripts in strings

A string that is run comes to what the script comes to one level deeper, on the same variables and
functions. Before its last level, running is the only thing that the outer script adds.
-/

namespace Calculator

open Grammar Grammar.Reader Evaluation

variable {literal s : String}

/-! ## The call -/

def runSource (literal : String) : String := "run(" ++ literal ++ ")"

def runTokens (literal : String) : List Token :=
  [⟨.identifier, ⟨"run", 0⟩⟩, ⟨.lpar, ⟨"(", 3⟩⟩, ⟨.string, ⟨literal, 4⟩⟩,
    ⟨.rpar, ⟨")", 4 + literal.length⟩⟩]

def runTree (literal : String) : Tree :=
  .node .call ⟨runSource literal, 0⟩
    ((runTokens literal).map fun token => .leaf token.kind token.site)

theorem length_runSource (literal : String) :
    (runSource literal).length = 4 + literal.length + 1 := by
  rw [runSource, String.length_append, String.length_append]
  rfl

/-- A literal is read in the same way when there is something behind it. -/
theorem Quotes.readNext_append (h : Quotes literal s) (after : List Char) :
    readNext (literal.toList ++ after) = some (some .string, literal.toList, after) := by
  obtain ⟨cs, rest, hread⟩ :=
    (lex_eq_iff.mp h.lexed).readNext_of_mem _ (List.mem_singleton_self _)
  obtain ⟨reader, hmem, hread⟩ := readNext_reads hread
  obtain rfl : reader = readString := List.mem_singleton.mp hmem
  have hcs := sound_readString hread
  rw [← hcs, ← List.nil_append rest, ← List.append_assoc] at hread
  have halone : readString literal.toList = some (literal.toList, []) := by
    simpa using cuts_readString hread
  exact readNext_of_readString (stays_readString after halone)

theorem lex_runSource (h : Quotes literal s) :
    lex (runSource literal) = ⟨runTokens literal, none⟩ := by
  rw [lex_eq_iff]
  have htext : (runSource literal).toList = ['r', 'u', 'n', '('] ++ (literal.toList ++ [')']) := by
    simp [runSource]
  rw [htext]
  have hname : readNext (['r', 'u', 'n', '('] ++ (literal.toList ++ [')'])) =
      some (some .identifier, ['r', 'u', 'n'], '(' :: (literal.toList ++ [')'])) :=
    readNext_of_reader 14 rfl (by decide) rfl
  have hopen : readNext ('(' :: (literal.toList ++ [')'])) =
      some (some .lpar, ['('], literal.toList ++ [')']) :=
    readNext_of_reader 41 rfl (by decide) rfl
  have hclose : readNext [')'] = some (some .rpar, [')'], []) :=
    readNext_of_reader 42 rfl (by decide) rfl
  have hlexes : Lexes 0 _ _ [] :=
    .next hname (.next hopen (.next (h.readNext_append [')']) (.next hclose .done)))
  simpa [tokenOf, runTokens, String.length_toList] using hlexes

theorem parse_runSource (h : Quotes literal s) : ∃ script,
    parse (runSource literal) =
      .ok (.node .script script [.node .line ⟨runSource literal, 0⟩ [runTree literal]]) := by
  have hargument : Builds (runSource literal).toList.toArray [.node .arguments]
      [⟨.string, ⟨literal, 4⟩⟩, ⟨.rpar, ⟨")", 4 + literal.length⟩⟩]
      [.leaf .string ⟨literal, 4⟩] [⟨.rpar, ⟨")", 4 + literal.length⟩⟩] :=
    (Builds.operand .string _ _ (by decide) nofun).climb [.arguments] (by decide)
  have hparts : Builds (runSource literal).toList.toArray
      [.leaf .identifier, .leaf .lpar, .node .arguments, .leaf .rpar] (runTokens literal)
      ((runTokens literal).map fun token => .leaf token.kind token.site) [] :=
    .token _ _ (.token _ _ (hargument.cons (.token _ _ (.nil []))))
  have hcall := hparts.wrap (show _ ∈ Nonterminal.call.shut by decide) nofun
  have htree : Nonterminal.treesOf .call (runSource literal).toList.toArray
      ((runTokens literal).map fun token => .leaf token.kind token.site) = [runTree literal] := by
    have hspan : Tree.span (runSource literal).toList.toArray
        ((runTokens literal).map fun token => .leaf token.kind token.site) =
          ⟨runSource literal, 0⟩ := by
      refine Tree.span_of_edges rfl rfl rfl ?_
      change 4 + literal.length + ")".length = _
      rw [length_runSource]
      rfl
    exact congrArg (fun site => [Grammar.Tree.node .call site _]) hspan
  rw [htree] at hcall
  have hexpression : Builds (runSource literal).toList.toArray [.node .expression]
      (runTokens literal) [runTree literal] [] := hcall.climb operandChain.reverse.tail (by decide)
  have hspan : Tree.span (runSource literal).toList.toArray [runTree literal] =
      ⟨runSource literal, 0⟩ := Tree.span_whole rfl
  rw [← hspan]
  have hbalanced : Balanced (runTokens literal) := by
    intro b
    cases b <;> rfl
  exact parse_of_builds (lex_runSource h) hbalanced hexpression

/-! ## What it comes to -/

variable {setting : Setting}

theorem walk_runTree (h : Quotes literal s) (deeper : Deeper) :
    walk setting deeper (runTree literal) =
      Outcome.ofValue <$> callName setting deeper ⟨runSource literal, 0⟩ "run" [.string s] := by
  have hliteral : stringLiteral ⟨literal, 4⟩ = .string s := h.value
  have hleaf : walk setting deeper (.leaf .string ⟨literal, 4⟩) =
      pure (Outcome.ofValue (.string s)) := by
    rw [← hliteral]
    rfl
  have hbelow : walkAll setting deeper true
      ((runTokens literal).map fun token => .leaf token.kind token.site) =
        pure [⟨.mark .identifier "run", .default⟩, ⟨.mark .lpar "(", .default⟩,
          Outcome.ofValue (.string s), ⟨.mark .rpar ")", .default⟩] := by
    simp only [runTokens, List.map_cons, List.map_nil, walkAll, bareName, Option.elim_none, hleaf]
    rfl
  rw [runTree, walk_node setting deeper (by decide) (by decide) (by decide)]
  change node setting deeper _ .call _ (walkAll setting deeper true _) = _
  rw [hbelow]
  have htask : task ⟨runSource literal, 0⟩ .call
      ((runTokens literal).map fun token => .leaf token.kind token.site)
      [⟨.mark .identifier "run", .default⟩, ⟨.mark .lpar "(", .default⟩,
        Outcome.ofValue (.string s), ⟨.mark .rpar ")", .default⟩] =
      .ok (.call "run" [.string s]) := rfl
  unfold node
  dsimp only [slip?]
  rw [pure_bind, combine, htask]
  rfl

/-- What the call comes to, from what the script comes to one level deeper. -/
theorem callName_run (h : setting.HasBuiltin "run") (site : Site) (memory : Memory) :
    callName setting (deeperFor setting memory.depth) site "run" [.string s] memory =
      if setting.maxDepth ≤ memory.depth + 1 then (.error (.located site .tooDeep), memory)
      else
        ((·.value) <$> (evaluate setting s memory.descend).1,
          { (evaluate setting s memory.descend).2 with depth := memory.depth }) := by
  have hbound := Signature.bind_one site "run" (p := .string "expression") ⟨rfl, rfl⟩
    (show Expected.string.admits (.string s) = true from rfl)
  rw [callName_of_hasBuiltin h rfl, callFunction, hbound]
  change runNested setting (deeperFor setting memory.depth) site s memory = _
  rw [runNested_apply]
  by_cases hdepth : setting.maxDepth ≤ memory.depth + 1
  · rw [if_pos hdepth, if_pos hdepth]
  · rw [if_neg hdepth, if_neg hdepth, oneDeeper,
      deeperFor_apply rfl (Nat.not_le.mp hdepth), map_apply]
    have hafter := evaluate_depth setting s memory.descend
    dsimp only
    rw [Memory.ascend, hafter]
    rfl

theorem walk_run (hsetting : setting.HasBuiltin "run") (hquotes : Quotes literal s)
    {memory : Memory} (hdepth : memory.depth + 1 < setting.maxDepth) :
    walk setting (deeperFor setting memory.depth) (runTree literal) memory =
      ((fun result => Outcome.ofValue result.value) <$> (evaluate setting s memory.descend).1,
        { (evaluate setting s memory.descend).2 with depth := memory.depth }) := by
  rw [walk_runTree hquotes, map_apply, callName_run hsetting, if_neg (Nat.not_le.mpr hdepth)]
  generalize evaluate setting s memory.descend = inner
  cases inner.1 <;> rfl

/-- The outer script writes the value in one line. -/
theorem evaluate_runSource (hquotes : Quotes literal s) {memory after : Memory}
    {inside : Attempt ScriptResult}
    (hname : ∀ result, inside = .ok result → result.value.name? = none)
    (hwalk : walk setting (deeperFor setting memory.depth) (runTree literal) memory =
      ((fun result => Outcome.ofValue result.value) <$> inside, after)) :
    evaluate setting (runSource literal) memory = ((do
      let result ← inside
      let text ← setting.decorators.call ⟨runSource literal, 0⟩ "default" result.value
      return ⟨[⟨text, result.value, .default⟩], text, result.value⟩), after) := by
  obtain ⟨script, hparse⟩ := parse_runSource hquotes
  cases inside with
  | error failure => exact evaluate_of_failure hparse hwalk
  | ok result =>
    rw [evaluate_of_value hparse rfl (hname result rfl) hwalk]
    dsimp only [bind, Except.bind]
    cases setting.decorators.call ⟨runSource literal, 0⟩ "default" result.value <;> rfl

/--
Running a literal is transparent. Its value or failure is that of the script one level deeper, and
so is the memory, but for the depth. Where there is no level left, nothing happens.
-/
theorem evaluate_run (hsetting : setting.HasBuiltin "run") (hquotes : Quotes literal s)
    (memory after : Memory) (inside : Attempt ScriptResult)
    (hinside : evaluate setting s memory.descend = (inside, after)) :
    (memory.depth + 1 < setting.maxDepth →
      evaluate setting (runSource literal) memory = ((do
        let result ← inside
        let text ← setting.decorators.call ⟨runSource literal, 0⟩ "default" result.value
        return ⟨[⟨text, result.value, .default⟩], text, result.value⟩),
        { after with depth := memory.depth }) ∧
      (setting.decorators.find? "default" = DecoratorTable.builtin.find? "default" →
        (·.value) <$> (evaluate setting (runSource literal) memory).1 =
          (·.value) <$> inside)) ∧
    (setting.maxDepth ≤ memory.depth + 1 →
      evaluate setting (runSource literal) memory =
        (.error (.located ⟨runSource literal, 0⟩ .tooDeep), memory)) := by
  constructor
  · intro hdepth
    have hname : ∀ result, inside = .ok result → result.value.name? = none := by
      rintro result rfl
      exact evaluate_name? hinside
    have hwalk := walk_run hsetting hquotes hdepth
    rw [hinside] at hwalk
    have houter := evaluate_runSource hquotes hname hwalk
    refine ⟨houter, fun hdefault => ?_⟩
    rw [houter]
    cases inside with
    | error failure => rfl
    | ok result =>
      dsimp only [bind, Except.bind]
      rw [call_default hdefault]
      rfl
  · intro hdepth
    obtain ⟨script, hparse⟩ := parse_runSource hquotes
    apply evaluate_of_failure hparse
    rw [walk_runTree hquotes, map_apply, callName_run hsetting, if_pos hdepth]
    rfl

/-- The string has two lines, and the first one sets a variable. -/
theorem evaluate_run_assignment :
    let setting : Setting := ⟨50, .builtin, .builtin, none, .still⟩
    let s := "x = x + 1\nx * 2"
    let literal := quotation '"' s
    let memory : Memory := ⟨[("x", .int 2)], [], 3, 0, []⟩
    setting.HasBuiltin "run" ∧ Quotes literal s ∧ literal = "\"x = x + 1\\nx * 2\"" ∧
      memory.depth + 1 < setting.maxDepth ∧ ∃ result after,
        evaluate setting s memory.descend = (.ok result, after) ∧ result.value.text = "6" ∧
        (·.value) <$> (evaluate setting (runSource literal) memory).1 = .ok result.value ∧
        (evaluate setting (runSource literal) memory).2 = { after with depth := 3 } := by
  intro setting s literal memory
  have hrun : setting.HasBuiltin "run" := ⟨rfl, nofun⟩
  have hquotes : Quotes literal s := quotes_quotation (by decide) s
  have htext : (evaluate setting s memory.descend).1.toOption.map (·.value.text) = some "6" := by
    decide +kernel
  refine ⟨hrun, hquotes, by decide +kernel, by decide, ?_⟩
  rcases hinner : evaluate setting s memory.descend with ⟨failure | result, after⟩ <;>
    rw [hinner] at htext
  · cases htext
  · obtain ⟨houter, hsame⟩ := (evaluate_run hrun hquotes memory after _ hinner).1 (by decide)
    exact ⟨result, after, rfl, Option.some.inj htext, hsame rfl, congrArg Prod.snd houter⟩

end Calculator
