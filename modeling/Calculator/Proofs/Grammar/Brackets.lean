import Calculator.Proofs.Grammar.Acceptance

/-!
# Brackets

Each alternative closes what it opens, but for the nodes of brackets that are left open. Tokens with
as many closing as opening brackets of each sort have no such node.
-/

namespace Calculator.Grammar

open Sketch

inductive Bracket where
  | paren | square | brace
  deriving DecidableEq, Repr

namespace Bracket

def opening : Bracket → Terminal
  | paren => .lpar
  | square => .lsqb
  | brace => .lbrace

def closing : Bracket → Terminal
  | paren => .rpar
  | square => .rsqb
  | brace => .rbrace

/-- The node of a bracket that is left open. -/
def openRule : Bracket → Rule
  | paren => .openParen
  | square => .openArray
  | brace => .openObject

end Bracket

/-- How many tokens are of the kind. -/
def count (kind : Terminal) (tokens : List Token) : Nat := tokens.countP (·.kind = kind)

/-- As many closing as opening brackets of each sort. -/
def Balanced (tokens : List Token) : Prop :=
  ∀ b : Bracket, count b.closing tokens = count b.opening tokens

instance (tokens : List Token) : Decidable (Balanced tokens) :=
  decidable_of_iff (∀ b ∈ [Bracket.paren, .square, .brace],
    count b.closing tokens = count b.opening tokens)
    ⟨fun h b => h b (by cases b <;> decide), fun h b _ => h b⟩

/-- No bracket is left open. -/
def Shut : Choice := fun n alternative _ =>
  alternative ∈ n.alternatives ∧ ∀ b : Bracket, n.rule? ≠ some b.openRule

variable {parts : List Part} {tokens rest : List Token} {sketches lines : List Sketch} {b : Bracket}

@[simp]
theorem count_append (kind : Terminal) (first second : List Token) :
    count kind (first ++ second) = count kind first + count kind second :=
  List.countP_append

theorem count_alternative (b : Bracket) (n : Nonterminal) : ∀ alternative ∈ n.alternatives,
    alternative.count (.leaf b.opening) = alternative.count (.leaf b.closing) +
      if n.rule? = some b.openRule then 1 else 0 := by
  cases b <;> cases n <;> decide

theorem count_round (b : Bracket) (repetition : Repetition) : ∀ round ∈ repetition.rounds,
    (round.map Part.one).count (.leaf b.opening) =
      (round.map Part.one).count (.leaf b.closing) := by
  cases b <;> cases repetition <;> decide

/-- Up to the brackets among the parts themselves, only open nodes have more opening brackets. -/
theorem Derives.count_brackets (b : Bracket)
    (h : Derives Grammatical parts tokens sketches rest) :
    count b.opening (leavesOf sketches) + parts.count (.leaf b.closing) =
      count b.closing (leavesOf sketches) + parts.count (.leaf b.opening) +
        nodesOf b.openRule sketches := by
  induction h with
  | nil => rfl
  | @token kind token parts tokens sketches rest hkind _ ih =>
    subst hkind
    have hone (kind : Terminal) : (Part.leaf token.kind :: parts).count (.leaf kind) =
        parts.count (.leaf kind) + count kind [token] := by
      simp [List.count_cons, count, List.countP_cons]
    have hleaf : leavesOf [Sketch.leaf token] = [token] := rfl
    have hnodes : nodesOf b.openRule [Sketch.leaf token] = 0 := rfl
    rw [leavesOf_append, count_append, count_append, nodesOf_append, hone, hone, hleaf, hnodes]
    omega
  | @node n alternative parts tokens between inside sketches rest hmay _ _ ihfirst ihothers =>
    have halternative := count_alternative b n alternative hmay
    rw [leavesOf_append, count_append, count_append, nodesOf_append, leavesOf_wrap, nodesOf_wrap,
      List.count_cons_of_ne (by simp), List.count_cons_of_ne (by simp)]
    omega
  | lastRound hround _ ih =>
    have hequal := count_round b _ _ hround
    rw [List.count_append, List.count_append] at ih
    rw [List.count_cons_of_ne (by simp), List.count_cons_of_ne (by simp)]
    omega
  | nextRound hround _ ih =>
    have hequal := count_round b _ _ hround
    rw [List.count_append, List.count_append] at ih
    omega

theorem Derives.shut (h : Derives Grammatical parts tokens sketches rest)
    (hnone : ∀ b : Bracket, nodesOf b.openRule sketches = 0) :
    Derives Shut parts tokens sketches rest := by
  induction h with
  | nil => exact .nil
  | token hkind _ ih =>
    refine .token hkind (ih fun b => ?_)
    have := hnone b
    rw [nodesOf_append] at this
    omega
  | @node n _ _ _ _ inside sketches _ hmay _ _ ihfirst ihothers =>
    have hsplit : ∀ b : Bracket, nodesOf b.openRule inside = 0 ∧ n.rule? ≠ some b.openRule ∧
        nodesOf b.openRule sketches = 0 := fun b => by
      have := hnone b
      rw [nodesOf_append, nodesOf_wrap] at this
      split at this
      · omega
      · exact ⟨by omega, ‹_›, by omega⟩
    exact .node ⟨hmay, fun b => (hsplit b).2.1⟩ (ihfirst fun b => (hsplit b).1)
      (ihothers fun b => (hsplit b).2.2)
  | lastRound hround _ ih => exact .lastRound hround (ih hnone)
  | nextRound hround _ ih => exact .nextRound hround (ih hnone)

/-! ## Balanced scripts -/

theorem count_of_line (b : Bracket) (h : Derives Grammatical [.node .lineBody] tokens sketches []) :
    count b.opening tokens = count b.closing tokens + nodesOf b.openRule sketches := by
  have hcount := h.count_brackets b
  rwa [← List.append_nil (leavesOf sketches), ← h.leaves, List.count_cons_of_ne (by simp),
    List.count_cons_of_ne (by simp)] at hcount

theorem count_newline (b : Bracket) (tokens : List Token) {newline : Token}
    (h : newline.kind = .newline) :
    count b.opening (newline :: tokens) = count b.opening tokens ∧
      count b.closing (newline :: tokens) = count b.closing tokens := by
  cases b <;> simp [count, h, Bracket.opening, Bracket.closing]

theorem count_of_script (b : Bracket) (h : Script tokens lines) :
    count b.opening tokens = count b.closing tokens + nodesOf b.openRule lines := by
  have hline : Rule.line ≠ b.openRule := by cases b <;> decide
  induction h with
  | nil => rfl
  | last hbody => simpa [nodesOf, nodes, hline] using count_of_line b hbody
  | @blank newline tokens lines hnewline _ ih =>
    obtain ⟨hopening, hclosing⟩ := count_newline b tokens hnewline
    rw [hopening, hclosing, ih]
    simp [nodesOf, nodes, hline]
  | @line body sketches newline tokens lines hbody hnewline _ ih =>
    obtain ⟨hopening, hclosing⟩ := count_newline b tokens hnewline
    have hcount := count_of_line b hbody
    rw [count_append, count_append, hopening, hclosing, ih, hcount]
    simp only [nodesOf, nodes, if_neg hline]
    omega

theorem Balanced.nodes_eq_zero (hbalanced : Balanced tokens) (h : Script tokens lines)
    (b : Bracket) : nodesOf b.openRule lines = 0 := by
  have hcount := count_of_script b h
  rw [hbalanced b] at hcount
  omega

end Calculator.Grammar
