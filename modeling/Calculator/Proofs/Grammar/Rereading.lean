import Calculator.Evaluation.Calling
import Calculator.Proofs.Grammar.Lines
import Calculator.Proofs.Grammar.Trees

/-!
# Reading the body of a definition again

A definition keeps the text of its body, and each call reads this text again. The text alone is a
script of one line with the same tree, counted from the start of the body. The tokens of the text
are the tokens of the body, and the chart of those tokens is a window on the chart of the line.

Only a body that ends with a zero and octal digits can read in another way. Before an exponent
without digits this is an integer, and alone it is an octal number.
-/

namespace Calculator.Grammar

open Sketch

namespace Tree

mutual

/-- The same tree, counted from a place in the source. -/
def countedFrom (start : Nat) : Tree → Tree
  | .leaf kind site => .leaf kind { site with index := site.index - start }
  | .node rule site children =>
    .node rule { site with index := site.index - start } (countedAllFrom start children)

def countedAllFrom (start : Nat) : List Tree → List Tree
  | [] => []
  | tree :: trees => tree.countedFrom start :: countedAllFrom start trees

end

mutual

theorem countedFrom_shift (offset : Nat) :
    ∀ tree : Tree, (tree.shift offset).countedFrom offset = tree
  | .leaf kind site => by simp [shift, countedFrom, Site.shift]
  | .node rule site children => by
    simp [shift, countedFrom, Site.shift, countedAllFrom_shiftAll offset children]

theorem countedAllFrom_shiftAll (offset : Nat) :
    ∀ trees : List Tree, countedAllFrom offset (shiftAll offset trees) = trees
  | [] => rfl
  | tree :: trees => by
    simp [shiftAll, countedAllFrom, countedFrom_shift offset tree,
      countedAllFrom_shiftAll offset trees]

end

end Tree

variable {source : String} {tree : Tree} {tokens : List Token}

/-! ## From a source to its lines -/

theorem mem_of_readLines {lines : List Line} {sketches : List Sketch}
    (h : readLines lines = .ok sketches) : ∀ sketch ∈ sketches, ∃ line ∈ lines, ∃ parts,
      sketch = .node .line parts ∧ line.read = .ok parts := by
  induction lines generalizing sketches with
  | nil =>
    cases h
    simp
  | cons line lines ih =>
    rw [readLines] at h
    cases hread : line.read with
    | error rejection =>
      rw [hread] at h
      cases h
    | ok parts =>
      cases hothers : readLines lines with
      | error rejection =>
        rw [hread, hothers] at h
        cases h
      | ok others =>
        rw [hread, hothers] at h
        cases h
        refine List.forall_mem_cons.mpr ⟨⟨line, List.mem_cons_self, parts, rfl, hread⟩, ?_⟩
        intro sketch hsketch
        obtain ⟨later, hlater, heq⟩ := ih hothers sketch hsketch
        exact ⟨later, List.mem_cons_of_mem line hlater, heq⟩

theorem parse_eq_ok : parse source = .ok tree ↔ ∃ tokens lines, lex source = ⟨tokens, none⟩ ∧
    readTokens tokens = .ok lines ∧
      tree = Tree.collapse source.toList.toArray .script
        (lines.map (Tree.ofSketch source.toList.toArray)) := by
  unfold parse
  obtain ⟨tokens, stuck⟩ := lex source
  cases hread : readTokens tokens with
  | error rejection => cases rejection <;> cases stuck <;> simp [hread]
  | ok lines => cases stuck <;> simp [hread, eq_comm]

theorem known_of_read {line : Line} {parts : List Sketch} (h : line.read = .ok parts) :
    AllOf (Known line.body) parts := by
  have hmark : AllOf (Known line.body) (line.newline.map Sketch.leaf).toList := by
    cases line.newline <;> simp [AllOf, All]
  unfold Line.read at h
  dsimp only at h
  split at h
  · cases h
    exact hmark
  · split at h
    case h_1 e he =>
      cases h
      have hmem := List.mem_of_find?_eq_some he
      rw [Chart.top_eq_found] at hmem
      exact allOf_append.mpr ⟨hmark, (reading_of_found hmem).nodes⟩
    case h_2 => split at h <;> cases h

/-- The body of a definition among the tokens of the source. -/
theorem definition_of_parse {site : Site} {children : List Tree} (h : parse source = .ok tree)
    (hmem : .node .definition site children ∈ tree.subtrees) :
    ∃ before after more body others, ∃ e : Ending,
      lex source = ⟨before ++ (body.leaves ++ (after ++ more)), none⟩ ∧
      children = Tree.ofSketches source.toList.toArray (body :: others) [] ∧
      e ∈ ((Chart.ofTokens (body.leaves ++ after)).found .expression
        (body.leaves ++ after).length).ends ∧
      e.rest = after.length ∧ e.parts = [body] := by
  obtain ⟨tokens, lines, hlex, hread, rfl⟩ := parse_eq_ok.mp h
  rcases mem_subtrees_collapse hmem with ⟨hscript, -⟩ | hmem
  · cases hscript
  · obtain ⟨child, hchild, hmem⟩ := Tree.mem_subtreesOf.mp hmem
    obtain ⟨sketch, hsketch, rfl⟩ := List.mem_map.mp hchild
    obtain ⟨line, hline, parts, rfl, hparts⟩ := mem_of_readLines hread sketch hsketch
    have hall : (Sketch.node .line parts).All
        fun rule parts => rule = .definition → Known line.body rule parts :=
      ⟨(fun hrule => by cases hrule),
        AllOf.mono (Q := fun rule parts => rule = .definition → Known line.body rule parts)
          (fun _ _ h _ => h) (known_of_read hparts)⟩
    obtain ⟨known, hknown, hchildren, -⟩ := node_of_mem_subtrees hall hmem
    obtain ⟨before, after, body, others, e, hbody, rfl, -, he⟩ := (hknown rfl).2 rfl
    obtain ⟨first, last, htokens⟩ := Line.infix_of_mem_split hline
    refine ⟨first ++ before, after, last, body, others, e, ?_, hchildren, he⟩
    rw [hlex, ← htokens, hbody]
    simp only [List.append_assoc]

/-! ## The body alone -/

section

variable {e : Ending} {body : Sketch}

/-- What the longer chart prefers for the body, the chart of the body alone prefers. -/
theorem ending_alone {after : List Token} {offset : Nat}
    (he : e ∈ ((Chart.ofTokens (tokens.map (Token.shift offset) ++ after)).found .expression
      (tokens.length + after.length)).ends)
    (hrest : e.rest = after.length) (hparts : e.parts = [body]) :
    ∃ f ∈ ((Chart.ofTokens tokens).found .expression tokens.length).ends, ∃ sketch,
      f.rest = 0 ∧ f.parts = [sketch] ∧ body = sketch.shift offset := by
  obtain ⟨low, hends, hlow⟩ := Chart.over_found tokens .expression tokens.length (Nat.le_refl _)
  rw [hends] at he
  rcases List.mem_append.mp he with he | he
  · obtain ⟨f, hf, rfl⟩ := List.mem_map.mp he
    obtain ⟨sketch, hsketch⟩ := found_eq_singleton (by decide) hf
    refine ⟨f, hf, sketch, ?_, hsketch, ?_⟩
    · exact Nat.add_right_cancel (hrest.trans (Nat.zero_add _).symm)
    · have hshift : Sketch.shiftAll offset f.parts = [body] := hparts
      rw [hsketch] at hshift
      exact (List.cons.inj hshift).1.symm
  · exact absurd hrest (Nat.ne_of_lt (hlow e he))

theorem Known.hasParts {rule : Rule} {parts : List Sketch} (h : Known tokens rule parts) :
    HasParts rule parts := h.1

theorem inOrder_of_lex (h : lex source = ⟨tokens, none⟩) : InOrder source.toList tokens := by
  have hrun := lex_eq_iff.mp h
  refine ⟨fun token htoken => ?_, hrun.ordered, hrun.filled⟩
  obtain ⟨before, after, hsource, hindex⟩ := hrun.within token htoken
  exact ⟨before, after, hsource, by simpa using hindex⟩

/-- A tree that goes from the start of a source to its end. -/
theorem site_of_cover {tree : Tree} (hcover : Cover tokens [tree])
    (hpiece : tree.IsPiece source.toList) (hne : tokens ≠ [])
    (hstart : ∀ token ∈ tokens.head?, token.site.index = 0)
    (hstop : ∀ token ∈ tokens.getLast?, token.stop = source.length) :
    tree.site = ⟨source, 0⟩ := by
  obtain ⟨first, last, start, stop, hfirst, hlast, hhead, hindex, hend, hlength⟩ :=
    hcover.edges hne
  obtain rfl : tree = start := Option.some.inj hhead
  obtain rfl : tree = stop := Option.some.inj hend
  rw [hstart first hfirst] at hindex
  rw [hstop last hlast, Tree.stop, hindex, Nat.zero_add] at hlength
  unfold Tree.IsPiece at hpiece
  rw [hindex, List.drop_zero] at hpiece
  have htext : tree.site.text = source := String.toList_inj.mp (hpiece.eq_of_length (by
    rw [String.length_toList, String.length_toList, hlength]))
  rw [← htext, ← hindex]

theorem Tree.span_of_edges {trees : List Tree} {first last : Tree}
    (hfirst : trees.head? = some first) (hlast : trees.getLast? = some last)
    (hstart : first.site.index = 0) (hstop : last.stop = source.length) :
    Tree.span source.toList.toArray trees = ⟨source, 0⟩ := by
  have hall : source.toList.take source.length = source.toList := by
    rw [← String.length_toList, List.take_length]
  have hstop : last.site.stop = source.length := hstop
  rw [Tree.span_eq hfirst hlast, Site.between, hstart, hstop]
  simp [hall]

theorem Tree.span_whole {tree : Tree} (h : tree.site = ⟨source, 0⟩) :
    Tree.span source.toList.toArray [tree] = ⟨source, 0⟩ := by
  have hstop : tree.stop = source.length := by rw [Tree.stop, h, Nat.zero_add]
  exact Tree.span_of_edges rfl List.getLast?_singleton (by rw [h]) hstop

/-- The script of one line of one tree, each of them all of the source. -/
theorem parse_of_expression {sketch : Sketch} (hlex : lex source = ⟨tokens, none⟩)
    (hinner : AllInner tokens)
    (he : e ∈ ((Chart.ofTokens tokens).found .expression tokens.length).ends)
    (hrest : e.rest = 0) (hparts : e.parts = [sketch])
    (hsite : (Tree.ofSketch source.toList.toArray sketch).site = ⟨source, 0⟩) :
    parse source = .ok (.node .script ⟨source, 0⟩ [.node .line ⟨source, 0⟩
      [Tree.ofSketch source.toList.toArray sketch]]) := by
  have hne : tokens ≠ [] := by
    rintro rfl
    cases he
  have hlines : readTokens tokens = .ok [.node .line [sketch]] := by
    have hnewline : ∀ t ∈ tokens, t.kind ≠ .newline := by
      intro t ht hkind
      have hinner := hinner t ht
      rw [hkind] at hinner
      cases hinner
    rw [readTokens, Line.split_of_no_newline hne hnewline, readLines,
      Line.read_of_expression hinner he hrest, hparts]
    rfl
  refine parse_eq_ok.mpr ⟨tokens, _, hlex, hlines, ?_⟩
  have hline : Tree.ofSketch source.toList.toArray (.node .line [sketch]) =
      .node .line ⟨source, 0⟩ [Tree.ofSketch source.toList.toArray sketch] :=
    congrArg (Tree.node .line · _) (Tree.span_whole hsite)
  rw [List.map_cons, List.map_nil, hline]
  exact congrArg (Tree.node .script · _) (Tree.span_whole rfl).symm

/-- A preferred expression in a longer source is the only line of its own text. -/
theorem parse_alone {a after more : List Token}
    (hlex : lex source = ⟨a ++ (body.leaves ++ (after ++ more)), none⟩)
    (he : e ∈ ((Chart.ofTokens (body.leaves ++ after)).found .expression
      (body.leaves ++ after).length).ends)
    (hrest : e.rest = after.length) (hparts : e.parts = [body])
    (hlast : ∀ token ∈ body.leaves.getLast?, token.isBareOctal = false) :
    ∃ text offset, ∃ tree : Tree, tree.site = ⟨text, 0⟩ ∧
      Tree.ofSketch source.toList.toArray body = tree.shift offset ∧
      parse text = .ok (.node .script ⟨text, 0⟩ [.node .line ⟨text, 0⟩ [tree]]) := by
  have hnodes := (reading_of_found he).nodes
  rw [hparts] at hnodes
  have hne : body.leaves ≠ [] := leaves_ne_nil (hnodes.1.mono fun _ _ => Known.hasParts)
  obtain ⟨before, inside, right, tokens, hsource, htokens, halone, hstart, hstop⟩ :=
    lex_piece hlex hne hlast
  -- The chart of the tokens of the text is a window on the chart of the line.
  rw [htokens, List.length_append, List.length_map] at he
  obtain ⟨f, hf, sketch, hzero, hsketch, hbody⟩ := ending_alone he hrest hparts
  have hread := reading_of_found hf
  rw [hsketch, hzero] at hread
  have hleaves : tokens = sketch.leaves := by
    simpa [List.rtake, leavesOf] using hread.leaves
  have hall : sketch.All HasParts := hread.nodes.1.mono fun _ _ => Known.hasParts
  have horder := inOrder_of_lex halone
  have hinner := isInner_of_found (by decide) hf
  rw [hsketch, leavesOf, leavesOf, List.nil_append, ← hleaves] at hinner
  have hsite : (Tree.ofSketch (String.ofList inside).toList.toArray sketch).site =
      ⟨String.ofList inside, 0⟩ := by
    have hcover : Cover tokens [Tree.ofSketch (String.ofList inside).toList.toArray sketch] := by
      rw [hleaves] at horder ⊢
      exact cover_ofSketch hall horder
    refine site_of_cover hcover ?_ ?_ hstart (by simpa using hstop)
    · refine isPiece_ofSketch ?_
      rw [← hleaves]
      exact horder.within
    · rintro rfl
      exact hne (by simpa using htokens)
  refine ⟨String.ofList inside, before.length, _, hsite, ?_,
    parse_of_expression halone hinner hf hzero hsketch hsite⟩
  rw [hleaves, String.toList_ofList] at horder
  rw [hsource, hbody, String.toList_ofList]
  exact ofSketch_shift hall horder

end

/-- Whether a source reads as a tree. -/
instance decidableParse (source : String) (tree : Tree) : Decidable (parse source = .ok tree) :=
  match parse source with
  | .ok found => decidable_of_iff (found = tree) (by simp)
  | .error _ => .isFalse (by simp)

/-- What a definition keeps is the text of its body, and this reads as the body again. -/
theorem parse_body {site : Site} {children : List Tree} (h : parse source = .ok tree)
    (hmem : .node .definition site children ∈ tree.subtrees) :
    ∃ head body, children.head? = some head ∧ children.getLast? = some body ∧
      (∀ memory, (Evaluation.define site children memory).2.definitions = memory.definitions.put
        ⟨head.input, Evaluation.parametersOf (children.drop 2), body.input⟩) ∧
      ((∀ token ∈ body.tokens.getLast?, token.isBareOctal = false) →
        parse body.input = .ok (.node .script ⟨body.input, 0⟩
          [.node .line ⟨body.input, 0⟩ [body.countedFrom body.site.index]])) := by
  obtain ⟨before, after, more, body, others, e, hlex, rfl, he, hrest, hparts⟩ :=
    definition_of_parse h hmem
  have hchildren : Tree.ofSketches source.toList.toArray (body :: others) [] =
      (others.map (Tree.ofSketch source.toList.toArray)).reverse ++
        [Tree.ofSketch source.toList.toArray body] := by
    rw [Tree.ofSketches_eq, List.map_cons, List.reverse_cons, List.append_nil]
  rw [hchildren]
  generalize (others.map (Tree.ofSketch source.toList.toArray)).reverse = first
  obtain ⟨head, hhead⟩ : ∃ head, (first ++ [Tree.ofSketch source.toList.toArray body]).head? =
      some head := Option.isSome_iff_exists.mp (by simp)
  have hlast := List.getLast?_concat (l := first) (a := Tree.ofSketch source.toList.toArray body)
  refine ⟨head, _, hhead, hlast, fun memory => ?_, fun hoctal => ?_⟩
  · simp only [Evaluation.define, hhead, hlast]
    rfl
  · rw [tokens_ofSketch] at hoctal
    obtain ⟨text, offset, tree, hsite, hshift, hparse⟩ :=
      parse_alone hlex he hrest hparts hoctal
    have hinput : (Tree.ofSketch source.toList.toArray body).input = text := by
      rw [hshift, Tree.input, Tree.site_shift, hsite]
      rfl
    have hindex : (Tree.ofSketch source.toList.toArray body).site.index = offset := by
      rw [hshift, Tree.site_shift, hsite]
      exact Nat.zero_add offset
    rw [hinput, hindex, hshift, Tree.countedFrom_shift]
    exact hparse

theorem parse_body_sum :
    ∃ tree site children, parse "f(x) = x + 1" = .ok tree ∧
      .node .definition site children ∈ tree.subtrees ∧
      parse "x + 1" = .ok (.node .script ⟨"x + 1", 0⟩ [.node .line ⟨"x + 1", 0⟩
        [.node .sum ⟨"x + 1", 0⟩ [.leaf .identifier ⟨"x", 0⟩, .leaf .plus ⟨"+", 2⟩,
          .leaf .int ⟨"1", 4⟩]]]) := by
  let definition : Tree := .node .definition ⟨"f(x) = x + 1", 0⟩ [.leaf .identifier ⟨"f", 0⟩,
    .leaf .lpar ⟨"(", 1⟩, .leaf .identifier ⟨"x", 2⟩, .leaf .rpar ⟨")", 3⟩, .leaf .equal ⟨"=", 5⟩,
    .node .sum ⟨"x + 1", 7⟩ [.leaf .identifier ⟨"x", 7⟩, .leaf .plus ⟨"+", 9⟩,
      .leaf .int ⟨"1", 11⟩]]
  have hparse : parse "f(x) = x + 1" = .ok (.node .script ⟨"f(x) = x + 1", 0⟩
      [.node .line ⟨"f(x) = x + 1", 0⟩ [definition]]) := by decide +kernel
  have hmem : definition ∈ (Tree.node .script ⟨"f(x) = x + 1", 0⟩
      [.node .line ⟨"f(x) = x + 1", 0⟩ [definition]]).subtrees := by decide +kernel
  obtain ⟨_, body, -, hbody, -, halone⟩ := parse_body hparse hmem
  cases hbody
  exact ⟨_, _, _, hparse, hmem, halone (by decide)⟩

/-- An exponent without digits after an unclosed parenthesis ends the body with an integer. -/
theorem octal_body_alone :
    ∃ tree site children, parse "(f(x) = 017e" = .ok tree ∧
      .node .definition site children ∈ tree.subtrees ∧
      children.getLast? = some (.leaf .int ⟨"017", 8⟩) ∧
      parse "017" = .ok (.node .script ⟨"017", 0⟩ [.node .line ⟨"017", 0⟩
        [.leaf .oct ⟨"017", 0⟩]]) ∧
      parse "017" ≠ .ok (.node .script ⟨"017", 0⟩ [.node .line ⟨"017", 0⟩
        [(Tree.leaf .int ⟨"017", 8⟩).countedFrom 8]]) := by
  let definition : Tree := .node .definition ⟨"f(x) = 017", 1⟩ [.leaf .identifier ⟨"f", 1⟩,
    .leaf .lpar ⟨"(", 2⟩, .leaf .identifier ⟨"x", 3⟩, .leaf .rpar ⟨")", 4⟩, .leaf .equal ⟨"=", 6⟩,
    .leaf .int ⟨"017", 8⟩]
  refine ⟨.node .script ⟨"(f(x) = 017e", 0⟩ [.node .line ⟨"(f(x) = 017e", 0⟩
    [.node .impliedProduct ⟨"(f(x) = 017e", 0⟩ [
      .node .openParen ⟨"(f(x) = 017", 0⟩ [.leaf .lpar ⟨"(", 0⟩, definition],
      .leaf .identifier ⟨"e", 11⟩]]], ⟨"f(x) = 017", 1⟩, definition.children, ?_, ?_, rfl, ?_, ?_⟩
  all_goals decide +kernel

end Calculator.Grammar
