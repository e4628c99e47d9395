import Calculator.Proofs.Grammar.Heads

/-!
# The tree of a balanced script

The chart keeps a derivation with the most calls, so no name before a parenthesis stands alone in
it. Where the brackets are balanced there is one such derivation, and one tree.
-/

namespace Calculator.Grammar

open Sketch Grammar.Tree

variable {tokens body rest : List Token} {newline : Token} {line : Line} {chars : Array Char}
  {children parts sketches lines : List Sketch} {index : Nat}

/-! ## One line -/

theorem not_derives_nil {n : Nonterminal} : ¬ Derives Grammatical [.node n] [] sketches [] :=
  fun h => Nat.lt_irrefl _ (h.length_lt (List.cons_ne_nil _ _))

/-- No derivation has more calls than the one that the chart has kept. -/
theorem Line.find?_most_calls {e : Ending}
    (h : ((Chart.ofTokens body).top .lineBody).ends.find? (·.rest = 0) = some e)
    (hder : Grammar.Derives Grammatical [.node .lineBody] body parts []) :
    nodesOf .call parts ≤ nodesOf .call e.parts := by
  obtain ⟨f, hf, hrest, hcalls⟩ := (top_lineBody body).complete (anyOf_singleton.mpr hder)
  have he := List.mem_of_find?_eq_some h
  have hzero : e.rest = 0 := by simpa using List.find?_some h
  have hdescending : Descending ((Chart.ofTokens body).top .lineBody).ends := by
    rw [Chart.top_eq_found, Chart.size_ofTokens]
    exact Chart.descending_found body .lineBody
  obtain rfl : f = e := hdescending.eq_of_rest hf he (hrest.trans hzero.symm)
  obtain ⟨_, _, -, -, hkept, hsame⟩ := (top_lineBody body).sound f hf
  rw [Ending.start, List.append_nil] at hkept
  rw [hkept]
  simp only [Ending.start, Nat.zero_add] at hcalls hsame
  omega

/-- The body of the line is empty, or no name before a parenthesis stands alone in it. -/
def Line.Fits (line : Line) (children : List Sketch) : Prop :=
  ∃ parts, children = line.mark ++ parts ∧ (line.body = [] ∧ parts = [] ∨
    Grammar.Derives Grammar.Fits [.node .lineBody] line.body parts [])

theorem Line.fits_of_read (h : line.read = .ok children)
    (hnone : ∀ b : Bracket, nodesOf b.openRule children = 0) : line.Fits children := by
  unfold read at h
  split at h
  case isTrue hempty =>
    cases h
    exact ⟨[], (List.append_nil _).symm, .inl ⟨List.isEmpty_iff.mp hempty, rfl⟩⟩
  case isFalse =>
    dsimp only at h
    split at h
    case h_1 e hfind =>
      cases h
      refine ⟨e.parts, rfl, .inr (((find?_eq_some hfind).shut fun b => ?_).fits ?_)⟩
      · have hzero := hnone b
        rw [nodesOf_append] at hzero
        omega
      · exact fun others hothers => find?_most_calls hfind hothers.grammatical
    case h_2 => split at h <;> cases h

theorem Line.Fits.unique {others : List Sketch} (h : line.Fits children)
    (hother : line.Fits others) : children = others := by
  obtain ⟨parts, rfl, hparts⟩ := h
  obtain ⟨more, rfl, hmore⟩ := hother
  congr 1
  rcases hparts with ⟨hempty, rfl⟩ | hparts <;> rcases hmore with ⟨hbody, rfl⟩ | hmore
  · rfl
  · rw [hempty] at hmore
    exact absurd hmore.shut_of_fits.grammatical not_derives_nil
  · rw [hbody] at hparts
    exact absurd hparts.shut_of_fits.grammatical not_derives_nil
  · exact hparts.unique hmore

/-! ### The tokens of a line in its tree -/

/-- Nothing but a parenthesis matters to what comes before. -/
theorem isChain_append_of_ne {first second : List Placed}
    (h : ∀ y ∈ second.head?, y.token.kind ≠ .lpar) : (first ++ second).IsChain Placed.Allows ↔
      first.IsChain Placed.Allows ∧ second.IsChain Placed.Allows := by
  rw [List.isChain_append, and_congr_right_iff]
  exact fun _ => and_iff_left fun _ _ y hy _ hlpar => absurd hlpar (h y hy)

theorem isChain_cons_of_ne {x : Placed} {second : List Placed} (h : x.token.kind ≠ .identifier) :
    (x :: second).IsChain Placed.Allows ↔ second.IsChain Placed.Allows := by
  rw [List.isChain_cons]
  exact and_iff_right fun y _ hname => absurd hname h

/-- A newline ends the line, or it is the last one. -/
def Line.Ended (line : Line) (later : List Placed) : Prop :=
  match line.newline with
  | some newline => newline.kind = .newline
  | none => later = []

/-- Lines are judged one by one. -/
theorem Line.Ended.isChain_iff {later : List Placed} (h : line.Ended later) :
    (placedAll .line 0 (grove chars (line.mark ++ parts)) ++ later).IsChain Placed.Allows ↔
      (placedAll .line 0 (grove chars parts)).IsChain Placed.Allows ∧
        later.IsChain Placed.Allows := by
  obtain ⟨body, _ | newline⟩ := line
  · obtain rfl : later = [] := h
    rw [List.append_nil, and_iff_left List.isChain_nil]
    rfl
  · have hnewline : newline.kind = .newline := h
    have hmark : placedAll .line (0 + parts.length) (grove chars (Line.mark ⟨body, some newline⟩)) =
        [⟨newline, .line, 0 + parts.length⟩] := rfl
    rw [placedAll_append_grove, hmark, List.append_assoc, List.singleton_append,
      isChain_append_of_ne, isChain_cons_of_ne (by simp [hnewline])]
    rintro _ ⟨⟩
    simp [hnewline]

theorem Line.headed_of_fits {later : List Placed} (hended : line.Ended later)
    (h : line.Fits children) (hlater : later.IsChain Placed.Allows) :
    (placedAll .line 0 (grove chars children) ++ later).IsChain Placed.Allows := by
  obtain ⟨parts, rfl, hparts⟩ := h
  refine hended.isChain_iff.mpr ⟨?_, hlater⟩
  rcases hparts with ⟨-, rfl⟩ | hparts
  · exact .nil
  · have hnamed : isNamed none [.node .lineBody] := rfl
    have hchain : (placedAll .line 0 (grove chars parts) ++ upNext []).IsChain Placed.Allows :=
      hparts.headed_of_fits hnamed nofun
    simpa [upNext] using hchain

theorem Line.fits_of_headed {later : List Placed} (hended : line.Ended later)
    (h : line.Derives children) (hnone : ∀ b : Bracket, nodesOf b.openRule children = 0)
    (hchain : (placedAll .line 0 (grove chars children) ++ later).IsChain Placed.Allows) :
    line.Fits children ∧ later.IsChain Placed.Allows := by
  obtain ⟨parts, rfl, hparts⟩ := h
  obtain ⟨hbody, hlater⟩ := hended.isChain_iff.mp hchain
  refine ⟨⟨parts, rfl, hparts.imp_right fun hder => ?_⟩, hlater⟩
  have hshut := hder.shut fun b => by
    have hzero := hnone b
    rw [nodesOf_append] at hzero
    omega
  have hhead : ∀ k, Rule.line.head? = some (0 + k) →
      k < ([Part.node .lineBody].takeWhile Part.isLeaf).length := nofun
  exact hshut.fits_of_headed hhead (by simpa [upNext] using hbody)

/-! ## All lines -/

theorem placed_collapse_of_staysAlone {rule r : Rule} (h : r.staysAlone) (trees : List Tree) :
    (collapse chars r trees).placed rule index = placedAll r 0 trees := by
  unfold collapse
  split
  · rw [if_pos h, placed]
  · rw [placed]

theorem placed_line : placedAll .script index
    ((.node .line children :: lines).map (ofSketch chars)) =
      placedAll .line 0 (grove chars children) ++
        placedAll .script (index + 1) (lines.map (ofSketch chars)) := by
  rw [List.map_cons, placedAll, ofSketch, placed_collapse_of_staysAlone rfl, ofSketches_eq,
    List.append_nil, grove]

theorem nodesOf_lines_eq_zero {b : Bracket} :
    nodesOf b.openRule (.node .line children :: lines) = 0 ↔
      nodesOf b.openRule children = 0 ∧ nodesOf b.openRule lines = 0 := by
  have hline : Rule.line ≠ b.openRule := by cases b <;> decide
  rw [nodesOf, nodes, if_neg hline]
  omega

/-- The trees of the lines, with all names before parentheses as heads. -/
def HeadedFrom (chars : Array Char) (index : Nat) (lines : List Sketch) : Prop :=
  (placedAll .script index (lines.map (ofSketch chars))).IsChain Placed.Allows

theorem headed_readTokens (hread : readTokens tokens = .ok lines)
    (hnone : ∀ b : Bracket, nodesOf b.openRule lines = 0) : HeadedFrom chars index lines := by
  induction tokens using Line.induction generalizing lines index with
  | hnil =>
    cases hread
    exact .nil
  | hlast body hne hbody =>
    obtain ⟨children, rfl, hline⟩ := (readTokens_eq_ok_of_noNewline hne hbody).mp hread
    have hfits := Line.fits_of_read hline fun b => (nodesOf_lines_eq_zero.mp (hnone b)).1
    have hended : Line.Ended ⟨body, none⟩ [] := rfl
    rw [HeadedFrom, placed_line]
    exact Line.headed_of_fits hended hfits .nil
  | hline body newline rest hbody hnewline ih =>
    obtain ⟨children, others, rfl, hline, hothers⟩ :=
      (readTokens_append_newline_eq_ok hbody hnewline).mp hread
    have hended : ∀ later, Line.Ended ⟨body, some newline⟩ later := fun _ => hnewline
    have hfits := Line.fits_of_read hline fun b => (nodesOf_lines_eq_zero.mp (hnone b)).1
    rw [HeadedFrom, placed_line]
    exact Line.headed_of_fits (hended _) hfits
      (ih hothers fun b => (nodesOf_lines_eq_zero.mp (hnone b)).2)

theorem script_nil_iff : Script [] lines ↔ lines = [] := by
  constructor
  · intro h
    generalize htokens : ([] : List Token) = tokens at h
    cases h with
    | nil => rfl
    | last hbody =>
      subst htokens
      exact absurd hbody not_derives_nil
    | blank => cases htokens
    | line => simp at htokens
  · rintro rfl
    exact .nil

theorem Script.unique {others : List Sketch} (h : Script tokens lines)
    (hnone : ∀ b : Bracket, nodesOf b.openRule lines = 0) (hheaded : HeadedFrom chars index lines)
    (hother : Script tokens others) (hshut : ∀ b : Bracket, nodesOf b.openRule others = 0)
    (hheads : HeadedFrom chars index others) : lines = others := by
  induction tokens using Line.induction generalizing lines others index with
  | hnil =>
    rw [script_nil_iff] at h hother
    rw [h, hother]
  | hlast body hne hbody =>
    rw [script_iff_of_noNewline hne hbody] at h hother
    obtain ⟨children, rfl, hder⟩ := h
    obtain ⟨parts, rfl, hparts⟩ := hother
    rw [HeadedFrom, placed_line] at hheaded hheads
    have hended : Line.Ended ⟨body, none⟩ [] := rfl
    obtain ⟨hfits, -⟩ := Line.fits_of_headed hended hder
      (fun b => (nodesOf_lines_eq_zero.mp (hnone b)).1) hheaded
    obtain ⟨hother, -⟩ := Line.fits_of_headed hended hparts
      (fun b => (nodesOf_lines_eq_zero.mp (hshut b)).1) hheads
    rw [hfits.unique hother]
  | hline body newline rest hbody hnewline ih =>
    rw [script_append_newline_iff hbody hnewline] at h hother
    obtain ⟨children, lines, rfl, hder, hlines⟩ := h
    obtain ⟨parts, others, rfl, hparts, hothers⟩ := hother
    rw [HeadedFrom, placed_line] at hheaded hheads
    have hended : ∀ later, Line.Ended ⟨body, some newline⟩ later := fun _ => hnewline
    obtain ⟨hfits, hlater⟩ := Line.fits_of_headed (hended _) hder
      (fun b => (nodesOf_lines_eq_zero.mp (hnone b)).1) hheaded
    obtain ⟨hother, hafter⟩ := Line.fits_of_headed (hended _) hparts
      (fun b => (nodesOf_lines_eq_zero.mp (hshut b)).1) hheads
    rw [hfits.unique hother, ih hlines (fun b => (nodesOf_lines_eq_zero.mp (hnone b)).2) hlater
      hothers (fun b => (nodesOf_lines_eq_zero.mp (hshut b)).2) hafter]

theorem headed_ofLines_iff : (Tree.ofLines chars lines).Headed ↔ HeadedFrom chars 0 lines := by
  rw [Headed, Tree.ofLines, placed_collapse_of_staysAlone rfl, HeadedFrom]

/--
A balanced script has one tree in which each name before a parenthesis is called or defined, or is
the name of a decorator. It is the tree that is read.
-/
theorem readTokens_unambiguous (tokens : List Token) (hscript : ∃ lines, Script tokens lines)
    (hbalanced : Balanced tokens) :
    ∃ lines, readTokens tokens = .ok lines ∧
      (∀ source, lex source = ⟨tokens, none⟩ →
        parse source = .ok (Tree.ofLines source.toList.toArray lines)) ∧
      ∀ chars tree, (∃ others, Script tokens others ∧ tree = Tree.ofLines chars others) ∧
        tree.Headed ↔ tree = Tree.ofLines chars lines := by
  obtain ⟨_, hscript⟩ := hscript
  obtain ⟨lines, hread⟩ := readTokens_of_script hscript
  have hlines := script_of_readTokens hread
  have hheaded : ∀ chars, HeadedFrom chars 0 lines := fun _ =>
    headed_readTokens hread (hbalanced.nodes_eq_zero hlines)
  refine ⟨lines, hread, fun source hlex => (parse_eq_ofLines hlex).mpr ⟨lines, hread, rfl⟩, ?_⟩
  intro chars tree
  constructor
  · rintro ⟨⟨others, hothers, rfl⟩, hheads⟩
    rw [headed_ofLines_iff] at hheads
    rw [hlines.unique (hbalanced.nodes_eq_zero hlines) (hheaded chars) hothers
      (hbalanced.nodes_eq_zero hothers) hheads]
  · rintro rfl
    exact ⟨⟨lines, hlines, rfl⟩, headed_ofLines_iff.mpr (hheaded chars)⟩

theorem readTokens_unambiguous_calls : ∃ tree, parse "-f(x)(y)[0]" = .ok tree ∧
    (∀ other, (∃ others, Script (lex "-f(x)(y)[0]").tokens others ∧
      other = Tree.ofLines "-f(x)(y)[0]".toList.toArray others) ∧ other.Headed ↔ other = tree) ∧
    tree = .node .script ⟨"-f(x)(y)[0]", 0⟩ [.node .line ⟨"-f(x)(y)[0]", 0⟩
      [.node .impliedProduct ⟨"-f(x)(y)[0]", 0⟩
        [.node .prefixed ⟨"-f(x)", 0⟩ [.leaf .minus ⟨"-", 0⟩,
          .node .call ⟨"f(x)", 1⟩ [.leaf .identifier ⟨"f", 1⟩, .leaf .lpar ⟨"(", 2⟩,
            .leaf .identifier ⟨"x", 3⟩, .leaf .rpar ⟨")", 4⟩]],
        .node .indexed ⟨"(y)[0]", 5⟩
          [.node .group ⟨"(y)", 5⟩ [.leaf .lpar ⟨"(", 5⟩, .leaf .identifier ⟨"y", 6⟩,
            .leaf .rpar ⟨")", 7⟩], .leaf .lsqb ⟨"[", 8⟩, .leaf .int ⟨"0", 9⟩,
            .leaf .rsqb ⟨"]", 10⟩]]]] := by
  have hstuck : (lex "-f(x)(y)[0]").stuck = none := by decide +kernel
  have hlex : lex "-f(x)(y)[0]" = ⟨(lex "-f(x)(y)[0]").tokens, none⟩ :=
    congrArg (Lexed.mk _) hstuck
  have hsome : (readTokens (lex "-f(x)(y)[0]").tokens).toOption.isSome := by decide +kernel
  cases hread : readTokens (lex "-f(x)(y)[0]").tokens with
  | error rejection =>
    rw [hread] at hsome
    cases hsome
  | ok read =>
    obtain ⟨lines, -, hlines, hunique⟩ := readTokens_unambiguous (lex "-f(x)(y)[0]").tokens
      ⟨read, script_of_readTokens hread⟩ (by decide +kernel)
    have hparse := hlines _ hlex
    exact ⟨_, hparse, hunique _, Except.ok.inj (hparse.symm.trans (by decide +kernel))⟩

end Calculator.Grammar
