import Calculator.Proofs.Grammar.Acceptance

/-!
# Sources of one token

A token that is an operand by itself is a script by itself. All nodes above it give way to it, but
for its line and the script.
-/

namespace Calculator.Grammar

open Sketch

variable {parts : List Part} {token : Token} {tokens rest : List Token}
  {sketches : List Sketch} {source : String} {kind : Terminal}

/-- A token that may stand alone where an operand may stand. -/
def Terminal.isOperand (kind : Terminal) : Bool := [.leaf kind] ∈ Nonterminal.atom.alternatives

/-- Nodes that may stay alone have more parts, but for brackets that are left open. -/
theorem part_of_staysAlone (n : Nonterminal) : ∀ rule ∈ n.rule?, rule.staysAlone →
    ∀ alternative ∈ n.alternatives, alternative.length ≤ 1 →
      alternative ∈ [[.leaf .lsqb], [.leaf .lbrace], [.node .decorator]] := by
  cases n <;> decide

theorem two_le_of_decorator : ∀ alternative ∈ Nonterminal.decorator.alternatives,
    2 ≤ alternative.length := by
  decide

namespace Derives

theorem nil_of_nil (h : Derives Grammatical parts [] sketches rest) :
    sketches = [] ∧ rest = [] := by
  have hlength := h.length_le
  rw [List.length_nil] at hlength
  obtain rfl : parts = [] := List.length_eq_zero_iff.mp (by omega)
  obtain ⟨hsketches, hrest⟩ := nil_iff.mp h
  exact ⟨hsketches, hrest.symm⟩

theorem not_leaf (h : Derives Grammatical [.leaf kind] [token] sketches rest)
    (hoperand : token.kind.isOperand) (hkind : kind.isOperand = false) : False := by
  obtain ⟨_, rfl, htokens, -⟩ := leaf_iff.mp h
  cases htokens
  rw [hoperand] at hkind
  cases hkind

/-- A derivation of an operand is the operand, once its nodes have given way. -/
theorem ofSketches_eq_leaf (chars : Array Char) (hoperand : token.kind.isOperand)
    (h : Derives Grammatical parts [token] sketches []) :
    Tree.ofSketches chars sketches [] = [.leaf token.kind token.site] := by
  generalize htokens : [token] = tokens at h
  generalize hrest : ([] : List Token) = rest at h
  induction h with
  | nil =>
    subst hrest
    cases htokens
  | token hkind others =>
    subst hrest
    cases htokens
    obtain ⟨rfl, -⟩ := others.nil_of_nil
    rfl
  | @node n alternative parts tokens between inside sketches rest hmay first others ih _ =>
    subst hrest htokens
    have hshorter := first.length_lt (Nonterminal.ne_nil_of_mem_alternatives _ _ hmay)
    rw [List.length_singleton] at hshorter
    obtain rfl : between = [] := List.length_eq_zero_iff.mp (by omega)
    obtain ⟨rfl, -⟩ := others.nil_of_nil
    have hinside := ih rfl rfl
    rw [List.nil_append, Nonterminal.wrap]
    cases hrule : n.rule? with
    | none => exact hinside
    | some rule =>
      have hgives : rule.staysAlone = false := by
        by_contra hstays
        have hlength := first.length_le
        rw [List.length_nil, Nat.zero_add, List.length_singleton] at hlength
        have hpart := part_of_staysAlone n rule hrule (by simpa using hstays) alternative hmay hlength
        simp only [List.mem_cons, List.not_mem_nil, or_false] at hpart
        rcases hpart with rfl | rfl | rfl
        · exact first.not_leaf hoperand (by decide)
        · exact first.not_leaf hoperand (by decide)
        · obtain ⟨pair, _, hmem, hpair, -⟩ := node_iff.mp first
          have htwo := two_le_of_decorator pair hmem
          have hlength := hpair.length_le
          rw [List.length_nil, List.length_singleton] at hlength
          omega
      simp only [Tree.ofSketches, Tree.ofSketch, hinside, Tree.collapse, hgives]
      rfl
  | lastRound _ _ ih => exact ih htokens hrest
  | nextRound _ _ ih => exact ih htokens hrest

end Derives

/-! ## The script of the token -/

/-- From a line down to an operand. Each of them has an alternative that is just the next. -/
def operandChain : List Nonterminal :=
  [.expression, .ternary, .disjunction, .conjunction, .comparison, .bitOr, .bitXor, .bitAnd,
    .shift, .sum, .product, .impliedProduct, .power, .prefixed, .postfixed, .indexed, .primary,
    .atom]

theorem exists_derives_of_chain (n : Nonterminal) (chain : List Nonterminal)
    (hchain : (n :: chain).IsChain fun n m => [.node m] ∈ n.alternatives)
    (hlast : [.leaf token.kind] ∈ ((n :: chain).getLast (List.cons_ne_nil _ _)).alternatives) :
    ∃ sketches, Derives Grammatical [.node n] [token] sketches [] := by
  induction chain generalizing n with
  | nil => exact ⟨_, .node hlast (.token rfl .nil) .nil⟩
  | cons m chain ih =>
    obtain ⟨hunit, hchain⟩ := List.isChain_cons_cons.mp hchain
    obtain ⟨sketches, h⟩ := ih m hchain hlast
    exact ⟨_, .node hunit h .nil⟩

theorem exists_script_of_operand (hoperand : token.kind.isOperand) :
    ∃ lines, Script [token] lines := by
  obtain ⟨sketches, h⟩ := exists_derives_of_chain .lineBody operandChain (by decide)
    (of_decide_eq_true hoperand)
  exact ⟨_, .last h⟩

theorem script_of_operand {lines : List Sketch} (hoperand : token.kind.isOperand)
    (h : Script [token] lines) :
    ∃ sketches, lines = [.node .line sketches] ∧
      Derives Grammatical [.node .lineBody] [token] sketches [] := by
  generalize htokens : [token] = tokens at h
  cases h with
  | nil => cases htokens
  | last hbody => exact ⟨_, rfl, htokens ▸ hbody⟩
  | blank hnewline _ =>
    cases htokens
    rw [hnewline] at hoperand
    cases hoperand
  | @line body _ newline _ _ _ hnewline _ =>
    have hmem : newline ∈ [token] := by simp [htokens]
    rw [List.mem_singleton.mp hmem] at hnewline
    rw [hnewline] at hoperand
    cases hoperand

/-- A source of one operand is a script of one line of it. -/
theorem parse_of_operand (hlex : lex source = ⟨[⟨kind, ⟨source, 0⟩⟩], none⟩)
    (hoperand : kind.isOperand) : parse source = .ok (.node .script ⟨source, 0⟩
      [.node .line ⟨source, 0⟩ [.leaf kind ⟨source, 0⟩]]) := by
  obtain ⟨_, hscript⟩ : ∃ lines, Script [⟨kind, ⟨source, 0⟩⟩] lines :=
    exists_script_of_operand hoperand
  obtain ⟨lines, hread⟩ := readTokens_of_script hscript
  obtain ⟨sketches, rfl, hline⟩ := script_of_operand hoperand (script_of_readTokens hread)
  have hleaf := hline.ofSketches_eq_leaf source.toList.toArray hoperand
  have htree : Tree.ofSketch source.toList.toArray (.node .line sketches) =
      .node .line ⟨source, 0⟩ [.leaf kind ⟨source, 0⟩] := by
    rw [Tree.ofSketch, hleaf]
    exact congrArg (Tree.node .line · _) (Tree.span_whole rfl)
  refine (parse_eq_ofLines hlex).mpr ⟨_, hread, ?_⟩
  rw [Tree.ofLines, List.map_cons, List.map_nil, htree]
  exact congrArg (Tree.node .script · _) (Tree.span_whole rfl).symm

end Calculator.Grammar
