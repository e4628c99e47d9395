import Calculator.Proofs.Grammar.Absorption
import Mathlib.Data.List.Chain

/-!
# Names before parentheses in a tree

The name of a call, of a definition or of a decorator is a child of its node. Where all names before
parentheses are such children, no name before a parenthesis stands alone in the derivation.
-/

namespace Calculator.Grammar

open Sketch Grammar.Tree

/-! ## The places of tokens in a tree -/

/-- The place of the name that is called or defined, or that is the decorator. -/
def Rule.head? : Rule → Option Nat
  | call | definition => some 0
  | decorator => some 1
  | _ => none

/-- A token as a child of a node. -/
structure Placed where
  token : Token
  rule : Rule
  /-- The place among the children. -/
  index : Nat
  deriving Repr

namespace Placed

/-- A name before a parenthesis is the head of its node. -/
def Allows (a b : Placed) : Prop :=
  a.token.kind = .identifier → b.token.kind = .lpar → a.rule.head? = some a.index

instance : DecidableRel Allows := fun a b =>
  inferInstanceAs (Decidable (a.token.kind = .identifier → b.token.kind = .lpar →
    a.rule.head? = some a.index))

end Placed

namespace Tree

mutual

/-- The tokens in their order. The tree itself is a child with the index of a node of the kind. -/
def placed (rule : Rule) (index : Nat) : Tree → List Placed
  | .leaf kind site => [⟨⟨kind, site⟩, rule, index⟩]
  | .node r _ children => placedAll r 0 children

def placedAll (rule : Rule) (index : Nat) : List Tree → List Placed
  | [] => []
  | tree :: trees => tree.placed rule index ++ placedAll rule (index + 1) trees

end

/-- Each name before a parenthesis is called or defined, or it is the name of a decorator. -/
def Headed (tree : Tree) : Prop := (tree.placed .script 0).IsChain Placed.Allows

instance (tree : Tree) : Decidable tree.Headed :=
  inferInstanceAs (Decidable ((tree.placed .script 0).IsChain Placed.Allows))

theorem placedAll_append (rule : Rule) (index : Nat) (first second : List Tree) :
    placedAll rule index (first ++ second) =
      placedAll rule index first ++ placedAll rule (index + first.length) second := by
  induction first generalizing index with
  | nil => rfl
  | cons tree trees ih =>
    rw [List.cons_append, placedAll, ih, placedAll, List.length_cons, List.append_assoc,
      Nat.add_right_comm, Nat.add_assoc]

mutual

theorem token_placed (rule : Rule) (index : Nat) : ∀ tree : Tree,
    (tree.placed rule index).map (·.token) = tree.tokens
  | .leaf .. => rfl
  | .node _ _ children => token_placedAll _ 0 children

theorem token_placedAll (rule : Rule) (index : Nat) : ∀ trees : List Tree,
    (placedAll rule index trees).map (·.token) = tokensOf trees
  | [] => rfl
  | tree :: trees => by
    rw [placedAll, List.map_append, token_placed rule index tree, token_placedAll rule _ trees,
      tokensOf]

end

theorem placed_collapse (chars : Array Char) (rule r : Rule) (index : Nat) (trees : List Tree) :
    (collapse chars r trees).placed rule index = placedAll rule index trees ∧ trees.length = 1 ∨
      (collapse chars r trees).placed rule index = placedAll r 0 trees := by
  rcases collapse_cases chars r trees with ⟨child, rfl, hchild⟩ | hnode
  · left
    rw [hchild, placedAll, placedAll, List.append_nil]
    exact ⟨rfl, rfl⟩
  · right
    rw [hnode, placed]

/-- The trees of the sketches, in their order. -/
def grove (chars : Array Char) (sketches : List Sketch) : List Tree :=
  (sketches.map (ofSketch chars)).reverse

theorem grove_append (chars : Array Char) (later first : List Sketch) :
    grove chars (later ++ first) = grove chars first ++ grove chars later := by
  rw [grove, List.map_append, List.reverse_append, grove, grove]

theorem tokensOf_grove (chars : Array Char) (sketches : List Sketch) :
    tokensOf (grove chars sketches) = leavesOf sketches := by
  have htrees : tokensOf (ofSketches chars sketches []) = leavesOf sketches :=
    tokens_ofSketches sketches
  rw [← htrees, ofSketches_eq, List.append_nil, grove]

/-- The children of a nonterminal are children of its node, or of the node above. -/
theorem placed_wrap (chars : Array Char) (rule : Rule) (index : Nat) (n : Nonterminal)
    (inside : List Sketch) : ∃ r i,
      placedAll rule index (grove chars (n.wrap inside)) = placedAll r i (grove chars inside) ∧
        (r = rule ∧ i = index ∧ (n.rule? = none ∨ inside.length = 1) ∨
          n.rule? = some r ∧ i = 0) := by
  unfold Nonterminal.wrap
  split
  case h_1 r hrule =>
    have hone : placedAll rule index (grove chars [.node r inside]) =
        (collapse chars r (grove chars inside)).placed rule index := by
      rw [grove, List.map_singleton, List.reverse_singleton, placedAll, placedAll, List.append_nil,
        ofSketch, ofSketches_eq, List.append_nil, grove]
    rw [hone]
    rcases placed_collapse chars rule r index (grove chars inside) with ⟨heq, hlength⟩ | heq
    · exact ⟨rule, index, heq, .inl ⟨rfl, rfl, .inr (by simpa [grove] using hlength)⟩⟩
    · exact ⟨r, 0, heq, .inr ⟨hrule, rfl⟩⟩
  case h_2 hrule => exact ⟨rule, index, rfl, .inl ⟨rfl, rfl, .inl hrule⟩⟩

end Tree

variable {chars : Array Char} {parts : List Part} {n : Nonterminal}
  {tokens between rest : List Token} {sketches later : List Sketch} {rule : Rule} {index : Nat}

/-! ## Along a derivation -/

/-- The next token, wherever it stands. -/
def upNext (rest : List Token) : List Placed :=
  (rest.head?.map (⟨·, .script, 0⟩)).toList

/-- Only the kind of the next token matters. -/
theorem isChain_append_iff {first second : List Placed}
    (h : second.head?.map (·.token) = between.head?) :
    (first ++ second).IsChain Placed.Allows ↔
      (first ++ upNext between).IsChain Placed.Allows ∧ second.IsChain Placed.Allows := by
  have hnext : (upNext between).IsChain Placed.Allows := by
    unfold upNext
    cases between.head? <;> simp
  have hboundary : ∀ x : Placed, (∀ y ∈ second.head?, x.Allows y) ↔
      ∀ y ∈ (upNext between).head?, x.Allows y := by
    intro x
    unfold upNext
    rw [← h]
    cases second.head? <;> simp [Placed.Allows]
  rw [List.isChain_append, List.isChain_append]
  simp only [hboundary]
  tauto

/-- What comes next is a token of the sketches or left over. -/
theorem Derives.head?_placed {may : Choice} (h : Derives may parts tokens sketches rest) :
    (placedAll rule index (grove chars sketches) ++ upNext rest).head?.map (·.token) =
      tokens.head? := by
  have hnext : (upNext rest).map (·.token) = rest.head?.toList := by
    unfold upNext
    cases rest.head? <;> rfl
  rw [← List.head?_map, List.map_append, token_placedAll, tokensOf_grove, hnext, h.leaves]
  cases leavesOf sketches with
  | nil => cases rest <;> rfl
  | cons => rfl

theorem placedAll_append_grove (first : List Sketch) :
    placedAll rule index (grove chars (later ++ first)) =
      placedAll rule index (grove chars first) ++
        placedAll rule (index + first.length) (grove chars later) := by
  rw [grove_append, placedAll_append]
  simp [grove]

/-! ### From the tree to the derivation -/

def Part.isLeaf : Part → Bool
  | .one (.terminal _) => true
  | _ => false

/-- The head of a node is one of the tokens that its alternatives start with. -/
theorem Nonterminal.head_of_rule (n : Nonterminal) : ∀ rule ∈ n.rule?, ∀ k ∈ rule.head?,
    ∀ alternative ∈ n.alternatives, k < (alternative.takeWhile Part.isLeaf).length := by
  cases n <;> decide

theorem rule?_of_name (n : Nonterminal) (hmem : [.leaf .identifier] ∈ n.alternatives) :
    n.rule? = none := by
  revert hmem
  cases n <;> decide

theorem Derives.fits_of_headed (h : Derives Shut parts tokens sketches rest)
    (hhead : ∀ k, rule.head? = some (index + k) → k < (parts.takeWhile Part.isLeaf).length)
    (hchain : (placedAll rule index (grove chars sketches) ++ upNext rest).IsChain Placed.Allows) :
    Derives Fits parts tokens sketches rest := by
  induction h generalizing rule index with
  | nil => exact .nil
  | token hkind others ih =>
    rw [placedAll_append_grove, List.append_assoc] at hchain
    refine .token hkind (ih (fun k hk => ?_) (List.isChain_append.mp hchain).2.1)
    rw [List.length_singleton, Nat.add_assoc] at hk
    have hlength := hhead (1 + k) hk
    rw [List.takeWhile_cons_of_pos rfl, List.length_cons] at hlength
    omega
  | @node n alternative _ _ between inside later rest hmay hinside others ihfirst ihothers =>
    have hnone : ∀ k, rule.head? ≠ some (index + k) := fun k hk => by
      simpa [Part.isLeaf] using hhead k hk
    rw [placedAll_append_grove, List.append_assoc, isChain_append_iff others.head?_placed] at hchain
    obtain ⟨hfirst, hlater⟩ := hchain
    obtain ⟨r, i, heq, hplace⟩ := placed_wrap chars rule index n inside
    rw [heq] at hfirst
    refine .node ⟨hmay, fun hname t ht hkind => ?_⟩ (ihfirst (fun k hk => ?_) hfirst)
      (ihothers (fun k hk => ?_) hlater)
    · subst hname
      have hrule := rule?_of_name n hmay.1
      obtain ⟨id, hid, -, rfl⟩ := Derives.leaf_iff.mp hinside
      rcases hplace with ⟨rfl, rfl, -⟩ | ⟨hsome, -⟩
      · have hallows : Placed.Allows ⟨id, r, i⟩ ⟨t, .script, 0⟩ := by
          rw [upNext, Option.mem_def.mp ht] at hfirst
          exact (List.isChain_cons_cons.mp hfirst).1
        exact hnone 0 (hallows hid hkind)
      · rw [hrule] at hsome
        cases hsome
    · rcases hplace with ⟨rfl, rfl, -⟩ | ⟨hsome, rfl⟩
      · exact absurd hk (hnone k)
      · rw [Nat.zero_add] at hk
        exact n.head_of_rule r hsome k hk alternative hmay.1
    · rw [Nat.add_assoc] at hk
      exact absurd hk (hnone _)
  | lastRound hround _ ih =>
    refine .lastRound hround (ih (fun k hk => ?_) hchain)
    exact absurd (hhead k hk) (by simp [Part.isLeaf])
  | nextRound hround _ ih =>
    refine .nextRound hround (ih (fun k hk => ?_) hchain)
    exact absurd (hhead k hk) (by simp [Part.isLeaf])

/-! ### From the derivation to the tree -/

/-- Something comes next, and it does not start with a parenthesis. -/
def isCut : List Part → Bool
  | [] => false
  | next :: _ => .lpar ∉ next.starts

/-- The place of the head, counted from the next child on. -/
def headAfter : Option Nat → Option Nat
  | some (k + 1) => some k
  | _ => none

/-- Each name is the head or it is cut off from a parenthesis. -/
def isNamed (head : Option Nat) : List Part → Bool
  | [] => true
  | .one (.terminal kind) :: parts =>
    (kind ≠ .identifier || head = some 0 || isCut parts) && isNamed (headAfter head) parts
  | .one (.nonterminal _) :: parts => isNamed none parts
  | .many repetition :: parts =>
    (repetition ≠ .moreParameters || isCut parts) && isNamed none parts

theorem Nonterminal.named_alternatives (n : Nonterminal) : ∀ parts ∈ n.shut,
    parts = [.leaf .identifier] ∨ isNamed (n.rule?.bind Rule.head?) parts := by
  cases n <;> decide

/-- A node with a head starts with two tokens, so it does not give way to one of them. -/
theorem Nonterminal.leaves_of_head (n : Nonterminal) : n.rule?.bind Rule.head? = none ∨
    ∀ parts ∈ n.alternatives, 1 < (parts.takeWhile Part.isLeaf).length := by
  cases n <;> decide

theorem Derives.leading_le {may : Choice} (h : Derives may parts tokens sketches rest) :
    (parts.takeWhile Part.isLeaf).length ≤ sketches.length := by
  induction h with
  | nil => exact Nat.le_refl _
  | token _ _ ih =>
    rw [List.takeWhile_cons_of_pos rfl, List.length_append]
    exact Nat.succ_le_succ ih
  | node | lastRound | nextRound => exact Nat.zero_le _

theorem isNamed_round {repetition : Repetition} {head : Option Nat}
    (h : isNamed head (.many repetition :: parts)) :
    ∀ round ∈ repetition.rounds, isNamed none (round.map .one ++ parts) ∧
      isNamed none (round.map .one ++ .many repetition :: parts) := by
  obtain ⟨hcut, hparts⟩ := Bool.and_eq_true_iff.mp h
  cases repetition
  case moreParameters =>
    rintro round (_ | ⟨_, ⟨⟩⟩)
    have hcut : isCut parts := hcut
    have hmore : isCut (Part.many .moreParameters :: parts) := rfl
    simp [isNamed, headAfter, hcut, hparts, hmore]
  all_goals simp [Repetition.rounds, isNamed, headAfter, hparts]

theorem headAfter_eq_some {head : Option Nat} {k : Nat} :
    headAfter head = some k ↔ head = some (k + 1) := by
  rcases head with _ | _ | k' <;> simp [headAfter]

theorem Derives.clear_of_cut (h : Derives Fits parts tokens sketches rest) (hcut : isCut parts) :
    Clear [.lpar] tokens := by
  cases parts with
  | nil => cases hcut
  | cons next others => exact h.starts_clear (by simpa [isCut] using hcut)

theorem Derives.headed_of_fits {head : Option Nat} (h : Derives Fits parts tokens sketches rest)
    (hnamed : isNamed head parts) (hhead : ∀ k, head = some k → rule.head? = some (index + k)) :
    (placedAll rule index (grove chars sketches) ++ upNext rest).IsChain Placed.Allows := by
  induction h generalizing head rule index with
  | nil =>
    unfold upNext
    rename_i tokens
    cases tokens.head? <;> simp [grove, placedAll]
  | @token kind token parts tokens sketches rest hkind others ih =>
    obtain ⟨hfirst, hnamed⟩ := Bool.and_eq_true_iff.mp hnamed
    have hplaces : ∀ k, headAfter head = some k → rule.head? = some (index + 1 + k) := by
      intro k hk
      rw [hhead (k + 1) (headAfter_eq_some.mp hk), Nat.add_right_comm, Nat.add_assoc]
    have hothers := ih hnamed hplaces
    rw [placedAll_append_grove, List.append_assoc]
    refine hothers.cons fun y hy hname hlpar => ?_
    simp only [Bool.or_eq_true, ne_eq, decide_eq_true_eq, decide_not,
      Bool.not_eq_true', decide_eq_false_iff_not] at hfirst
    rcases hfirst with (hother | rfl) | hcut
    · exact absurd (hkind.symm.trans hname) hother
    · exact hhead 0 rfl
    · have htoken := Option.mem_map_of_mem (·.token) hy
      rw [others.head?_placed] at htoken
      exact absurd (hlpar ▸ List.mem_singleton_self _) (others.clear_of_cut hcut y.token htoken)
  | @node n alternative _ _ between inside _ _ hmay hinside others ihfirst ihothers =>
    rw [placedAll_append_grove, List.append_assoc, isChain_append_iff others.head?_placed]
    obtain ⟨r, i, heq, hplace⟩ := placed_wrap chars rule index n inside
    rw [heq]
    refine ⟨?_, ihothers hnamed nofun⟩
    rcases n.named_alternatives alternative (hinside.shut_of_fits.mem_shut hmay.1) with rfl | hnames
    · obtain ⟨id, hid, -, rfl⟩ := Derives.leaf_iff.mp hinside
      have hclear := hmay.2 rfl
      unfold upNext
      cases hnext : between.head? with
      | none => exact List.isChain_singleton _
      | some t => exact List.isChain_pair.mpr fun _ hlpar => absurd hlpar (hclear t hnext)
    · rcases hplace with ⟨rfl, rfl, halone⟩ | ⟨hrule, rfl⟩
      · have hnone : n.rule?.bind Rule.head? = none := by
          rcases halone with hrule | hlength
          · rw [hrule, Option.bind_none]
          · refine n.leaves_of_head.resolve_right fun hleaves => ?_
            have hleading := Nat.le_trans (hleaves alternative hmay.1.1) hinside.leading_le
            omega
        rw [hnone] at hnames
        exact ihfirst hnames nofun
      · refine ihfirst hnames fun k hk => ?_
        simpa [hrule] using hk
  | lastRound hround _ ih => exact ih (isNamed_round hnamed _ hround).1 (fun k hk => nomatch hk)
  | nextRound hround _ ih => exact ih (isNamed_round hnamed _ hround).2 (fun k hk => nomatch hk)

end Calculator.Grammar
