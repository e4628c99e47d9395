import Calculator.Proofs.Grammar.SingleToken
import Calculator.Proofs.Grammar.Unambiguity

/-!
# Trees from their parts

The tree of a balanced line can be put together from the trees of its parts, and the parser can come
to no other one. Nodes that give way to an only child do so at once.
-/

namespace Calculator.Grammar

open Sketch

/-- The trees of the parts, up to the tokens that are left. -/
def Builds (chars : Array Char) (parts : List Part) (tokens : List Token) (trees : List Tree)
    (rest : List Token) : Prop :=
  ∃ sketches, Derives Fits parts tokens sketches rest ∧ Tree.grove chars sketches = trees

namespace Nonterminal

/-- What a nonterminal makes of the trees below it. -/
def treesOf (n : Nonterminal) (chars : Array Char) (trees : List Tree) : List Tree :=
  match n.rule? with
  | some rule => [Tree.collapse chars rule trees]
  | none => trees

/-- Has no node of its own above an only child. -/
def givesWay (n : Nonterminal) : Bool := n.rule?.all (!·.staysAlone)

variable {n : Nonterminal} {chars : Array Char}

theorem grove_wrap (sketches : List Sketch) :
    Tree.grove chars (n.wrap sketches) = n.treesOf chars (Tree.grove chars sketches) := by
  unfold wrap treesOf
  cases n.rule? with
  | none => rfl
  | some rule =>
    simp only [Tree.grove, List.map_singleton, List.reverse_singleton, Tree.ofSketch]
    rw [Tree.ofSketches_eq, List.append_nil]

theorem treesOf_singleton (h : n.givesWay = true) (tree : Tree) :
    n.treesOf chars [tree] = [tree] := by
  unfold treesOf
  unfold givesWay at h
  cases hrule : n.rule? with
  | none => rfl
  | some rule =>
    have hstays : rule.staysAlone = false := by simpa [hrule] using h
    simp [Tree.collapse, hstays]

end Nonterminal

variable {chars : Array Char} {parts first second alternative : List Part} {n : Nonterminal}
  {tokens between rest : List Token} {trees others : List Tree} {tree : Tree}
  {source : String}

namespace Builds

theorem nil (tokens : List Token) : Builds chars [] tokens [] tokens := ⟨[], .nil, rfl⟩

theorem append (hfirst : Builds chars first tokens trees between)
    (hsecond : Builds chars second between others rest) :
    Builds chars (first ++ second) tokens (trees ++ others) rest := by
  obtain ⟨earlier, hfirst, rfl⟩ := hfirst
  obtain ⟨later, hsecond, rfl⟩ := hsecond
  exact ⟨later ++ earlier, hfirst.append hsecond, Tree.grove_append chars later earlier⟩

theorem leaf (kind : Terminal) (site : Site) (rest : List Token) :
    Builds chars [.leaf kind] (⟨kind, site⟩ :: rest) [.leaf kind site] rest :=
  ⟨_, .token (show Token.kind ⟨kind, site⟩ = kind from rfl) .nil, rfl⟩

theorem cons {part : Part} (hfirst : Builds chars [part] tokens trees between)
    (hothers : Builds chars parts between others rest) :
    Builds chars (part :: parts) tokens (trees ++ others) rest :=
  hfirst.append hothers

/-- One more token before the others. -/
theorem token (kind : Terminal) (site : Site)
    (hothers : Builds chars parts tokens others rest) :
    Builds chars (.leaf kind :: parts) (⟨kind, site⟩ :: tokens) (.leaf kind site :: others) rest :=
  (leaf kind site tokens).cons hothers

theorem wrap (h : Builds chars alternative tokens trees rest) (hmem : alternative ∈ n.shut)
    (hname : alternative = [.leaf .identifier] → Clear [.lpar] rest) :
    Builds chars [.node n] tokens (n.treesOf chars trees) rest := by
  obtain ⟨sketches, hder, rfl⟩ := h
  exact ⟨_, hder.wrap hmem hname, Nonterminal.grove_wrap sketches⟩

/-- A tree goes up to where it has company. -/
theorem climb (ns : List Nonterminal) (h : Builds chars [.node n] tokens [tree] rest)
    (hchain : (n :: ns).IsChain fun lower upper =>
      [.node lower] ∈ upper.shut ∧ upper.givesWay = true) :
    Builds chars [.node (ns.getLastD n)] tokens [tree] rest := by
  induction ns generalizing n with
  | nil => exact h
  | cons m ns ih =>
    obtain ⟨⟨hstep, hgives⟩, hchain⟩ := List.isChain_cons_cons.mp hchain
    rw [List.getLastD_cons]
    refine ih ?_ hchain
    rw [← Nonterminal.treesOf_singleton hgives tree]
    exact h.wrap hstep nofun

/-- A token that can stand alone goes all the way up. -/
theorem operand (kind : Terminal) (site : Site) (rest : List Token)
    (h : [.leaf kind] ∈ Nonterminal.atom.shut) (hname : kind ≠ .identifier) :
    Builds chars [.node .expression] (⟨kind, site⟩ :: rest) [.leaf kind site] rest := by
  have hclear : [Part.leaf kind] = [.leaf .identifier] → Clear [.lpar] rest := fun heq => by
    cases heq
    exact absurd rfl hname
  exact ((leaf kind site rest).wrap h hclear).climb operandChain.reverse.tail (by decide)

variable (repetition : Repetition) (round : List Symbol)

theorem lastRound (h : Builds chars (round.map .one) tokens trees rest)
    (hround : round ∈ repetition.rounds) :
    Builds chars [.many repetition] tokens trees rest := by
  obtain ⟨sketches, hder, rfl⟩ := h
  exact ⟨sketches, .lastRound hround (by rwa [List.append_nil]), rfl⟩

theorem nextRound (h : Builds chars (round.map .one) tokens trees between)
    (hround : round ∈ repetition.rounds)
    (hothers : Builds chars [.many repetition] between others rest) :
    Builds chars [.many repetition] tokens (trees ++ others) rest := by
  obtain ⟨sketches, hder, heq⟩ := h.append hothers
  exact ⟨sketches, .nextRound hround hder, heq⟩

end Builds

/-! ## The script of a line -/

/-- Of balanced tokens, the parser keeps the derivation that is known. -/
theorem readTokens_of_fits {sketches : List Sketch} (hbalanced : Balanced tokens)
    (h : Derives Fits [.node .lineBody] tokens sketches []) :
    readTokens tokens = .ok [.node .line sketches] := by
  have hgrammatical := h.shut_of_fits.grammatical
  have hnewline := hgrammatical.noNewline
  have hne : tokens ≠ [] := by
    rintro rfl
    exact not_derives_nil hgrammatical
  obtain ⟨lines, hread⟩ := readTokens_of_script (.last hgrammatical)
  obtain ⟨children, rfl, hline⟩ := (readTokens_eq_ok_of_noNewline hne hnewline).mp hread
  have hnone := hbalanced.nodes_eq_zero (script_of_readTokens hread)
  have hfits := Line.fits_of_read hline fun b => (nodesOf_lines_eq_zero.mp (hnone b)).1
  have hsame : Line.Fits ⟨tokens, none⟩ sketches := ⟨sketches, rfl, .inr h⟩
  rw [hread, hfits.unique hsame]

/-- The parser finds the tree of an expression that is all of the source. -/
theorem parse_of_builds (hlex : lex source = ⟨tokens, none⟩) (hbalanced : Balanced tokens)
    (h : Builds source.toList.toArray [.node .expression] tokens [tree] []) :
    ∃ script, parse source = .ok (.node .script script
      [.node .line (Tree.span source.toList.toArray [tree]) [tree]]) := by
  have hbody : Builds source.toList.toArray [.node .lineBody] tokens [tree] [] :=
    h.climb [.lineBody] (by decide)
  obtain ⟨sketches, hder, htree⟩ := hbody
  have hline : Tree.ofSketch source.toList.toArray (.node .line sketches) =
      .node .line (Tree.span source.toList.toArray [tree]) [tree] := by
    rw [Tree.ofSketch, Tree.ofSketches_eq, List.append_nil]
    change Tree.collapse _ .line (Tree.grove _ sketches) = _
    rw [htree]
    rfl
  have hparse := (parse_eq_ofLines hlex).mpr ⟨_, readTokens_of_fits hbalanced hder, rfl⟩
  rw [Tree.ofLines, List.map_singleton, hline] at hparse
  exact ⟨_, hparse⟩

end Calculator.Grammar
