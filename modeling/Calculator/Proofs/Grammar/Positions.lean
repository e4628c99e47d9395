import Calculator.Proofs.Grammar.Joining

/-!
# Where trees stand

Each tree has the text of its place in the source, and its children stand inside of it, one after
the other. The leaves are all tokens, and between them there is only what the lexer drops.
-/

namespace Calculator.Grammar

open Sketch Reader

/-! ## What is dropped -/

/-- A piece of a source that is no token. A comment goes on to the end of its line. -/
inductive Skipped : List Char → List Char → Prop
  | blanks {read rest} : read ≠ [] → (∀ c ∈ read, c = ' ' ∨ c = '\t' ∨ c = '\x0c') →
      Skipped read rest
  | comment {read rest} : '\n' ∉ read → (∀ c ∈ rest.head?, c = '\n') →
      Skipped ('/' :: '/' :: read) rest
  | continuation {blanks newline rest} : (∀ c ∈ blanks, c = ' ' ∨ c = '\t') →
      newline = ['\n'] ∨ newline = ['\r', '\n'] → Skipped ('\\' :: (blanks ++ newline)) rest

/-- The text from an index on is these tokens, where they say that they stand, and skipped pieces. -/
inductive Laid : Nat → List Char → List Token → Prop
  | done {index} : Laid index [] []
  | skip {index read rest tokens} : Skipped read rest → Laid (index + read.length) rest tokens →
      Laid index (read ++ rest) tokens
  | token (token : Token) {rest tokens} : token.site.text ≠ "" → Laid token.stop rest tokens →
      Laid token.site.index (token.site.text.toList ++ rest) (token :: tokens)

variable {index : Nat} {cs read rest : List Char} {tokens : List Token} {source : String}
  {tree : Tree} {trees : List Tree} {chars : List Char}

theorem skipped_of_comment (h : readComment cs = some (read, rest)) : Skipped read rest := by
  obtain ⟨slashes, text, comment, hslashes, hcomment, rfl⟩ := andThen_eq_some.mp h
  obtain ⟨rfl, -⟩ := exactly_eq_some.mp hslashes
  obtain ⟨-, hcomment, hrest⟩ := optional_many_eq_some.mp hcomment
  exact .comment (fun hmem => by simpa using hcomment _ hmem) (by simpa using hrest)

theorem skipped_of_continuation (h : readContinuation cs = some (read, rest)) :
    Skipped read rest := by
  obtain ⟨start, left, newline, hstart, hnewline, rfl⟩ := andThen_eq_some.mp h
  obtain ⟨backslash, text, blanks, hbackslash, hblanks, rfl⟩ := andThen_eq_some.mp hstart
  obtain ⟨c, hc, rfl, rfl⟩ := oneOf_eq_some.mp hbackslash
  obtain rfl := List.mem_singleton.mp hc
  obtain ⟨-, hblanks, -⟩ := optional_many_eq_some.mp hblanks
  obtain ⟨before, text', last, hbefore, hlast, rfl⟩ := andThen_eq_some.mp hnewline
  obtain ⟨d, hd, rfl, rfl⟩ := oneOf_eq_some.mp hlast
  obtain rfl := List.mem_singleton.mp hd
  have hnewline : before ++ ['\n'] = ['\n'] ∨ before ++ ['\n'] = ['\r', '\n'] := by
    rcases optional_eq_some.mp hbefore with hbefore | ⟨-, rfl, -⟩
    · obtain ⟨e, he, rfl, -⟩ := oneOf_eq_some.mp hbefore
      exact .inr (by rw [List.mem_singleton.mp he]; rfl)
    · exact .inl rfl
  refine .continuation (fun c hc => ?_) hnewline
  simpa using hblanks c hc

theorem skipped_of_readNext (h : readNext cs = some (none, read, rest)) : Skipped read rest := by
  obtain ⟨reader, hmem, hread⟩ := readNext_reads h
  have hmem : reader ∈ [readComment, readContinuation, many isInlineBlank] := hmem
  simp only [List.mem_cons, List.not_mem_nil, or_false] at hmem
  rcases hmem with rfl | rfl | rfl
  · exact skipped_of_comment hread
  · exact skipped_of_continuation hread
  · obtain ⟨hne, -, hblank, -⟩ := many_eq_some.mp hread
    exact .blanks hne (by simpa [isInlineBlank, or_assoc] using hblank)

theorem laid_of_lexes (h : Lexes index cs tokens []) : Laid index cs tokens := by
  generalize hleft : ([] : List Char) = left at h
  induction h with
  | done =>
    subst hleft
    exact .done
  | @next index cs kind read rest tokens left hread hrest ih =>
    rw [← sound_readNext hread]
    cases kind with
    | none => exact .skip (skipped_of_readNext hread) (ih hleft)
    | some kind =>
      have htoken := Laid.token ⟨kind, String.ofList read, index⟩
        (by simpa using moves_readNext hread) (by simpa [Token.stop] using ih hleft)
      rwa [String.toList_ofList] at htoken

/-! ## Children inside of their node -/

namespace Tree

/-- The text of the tree stands where it says, and the children in it, one after the other. -/
structure Faithful (source : String) (tree : Tree) : Prop where
  text : (source.toList.drop tree.site.index).take tree.input.length = tree.input.toList
  inside : ∀ child ∈ tree.children, tree.site.index ≤ child.site.index ∧ child.stop ≤ tree.stop
  ordered : tree.children.Pairwise fun a b => a.stop ≤ b.site.index

end Tree

/-- Parts that a node can be made from. -/
structure Parted (source : List Char) (parts : List Sketch) : Prop where
  ne_nil : parts ≠ []
  all : AllOf HasParts parts
  order : InOrder source (leavesOf parts)

mutual

theorem all_parted : ∀ {sketch : Sketch}, sketch.All HasParts → InOrder chars sketch.leaves →
    sketch.All fun _ parts => Parted chars parts
  | .leaf _, _, _ => trivial
  | .node _ _, h, horder => ⟨⟨h.1, h.2, horder⟩, allOf_parted h.2 horder⟩

theorem allOf_parted : ∀ {parts : List Sketch}, AllOf HasParts parts →
    InOrder chars (leavesOf parts) → AllOf (fun _ parts => Parted chars parts) parts
  | [], _, _ => trivial
  | _ :: _, h, horder => ⟨all_parted h.1 horder.right, allOf_parted h.2 horder.left⟩

end

/-- Each tree starts with a token and stops with a token. -/
theorem ends_of_mem_ofSketches {parts : List Sketch} (hparts : AllOf HasParts parts)
    (horder : InOrder chars (leavesOf parts))
    (h : tree ∈ Tree.ofSketches chars.toArray parts []) :
    ∃ first ∈ leavesOf parts, ∃ last ∈ leavesOf parts,
      tree.site.index = first.site.index ∧ tree.stop = last.stop := by
  induction parts with
  | nil => cases h
  | cons sketch sketches ih =>
    rw [Tree.ofSketches, Tree.ofSketches_eq, List.mem_append, List.mem_singleton] at h
    rcases h with h | rfl
    · rw [Tree.ofSketches_eq, List.append_nil] at ih
      obtain ⟨first, hfirst, last, hlast, hends⟩ := ih hparts.2 horder.left h
      exact ⟨first, List.mem_append_left _ hfirst, last, List.mem_append_left _ hlast, hends⟩
    · have hcover := cover_ofSketch hparts.1 horder.right
      obtain ⟨first, last, start, stop, hfirst, hlast, hstart, hindex, hstop, hend⟩ :=
        hcover.edges (leaves_ne_nil hparts.1)
      cases hstart
      cases hstop
      exact ⟨first, List.mem_append_right _ (List.mem_of_head? hfirst), last,
        List.mem_append_right _ (List.mem_of_getLast? hlast), hindex, hend⟩

theorem ordered_ofSketches {parts : List Sketch} (hparts : AllOf HasParts parts)
    (horder : InOrder chars (leavesOf parts)) :
    (Tree.ofSketches chars.toArray parts []).Pairwise fun a b => a.stop ≤ b.site.index := by
  induction parts with
  | nil => exact .nil
  | cons sketch sketches ih =>
    have hothers := ih hparts.2 horder.left
    have hbetween := (List.pairwise_append.mp horder.ordered).2.2
    rw [Tree.ofSketches, Tree.ofSketches_eq]
    rw [Tree.ofSketches_eq, List.append_nil] at hothers
    refine List.pairwise_append.mpr ⟨hothers, List.pairwise_singleton _ _, ?_⟩
    intro a ha b hb
    obtain ⟨-, -, last, hlast, -, hstop⟩ := ends_of_mem_ofSketches hparts.2 horder.left (by
      rwa [Tree.ofSketches_eq, List.append_nil])
    have hone : AllOf HasParts [sketch] := ⟨hparts.1, trivial⟩
    obtain ⟨first, hfirst, -, -, hstart, -⟩ := ends_of_mem_ofSketches hone horder.right hb
    rw [hstop, hstart]
    exact hbetween last hlast first hfirst

theorem Tree.IsPiece.take_eq (h : tree.IsPiece source.toList) :
    (source.toList.drop tree.site.index).take tree.input.length = tree.input.toList := by
  rw [← String.length_toList]
  exact (List.prefix_iff_eq_take.mp h).symm

theorem faithful_leaf {token : Token} (h : token.Within source.toList) :
    (Tree.leaf token.kind token.site).Faithful source where
  text := (isPiece_leaf h).take_eq
  inside := by simp [Tree.children]
  ordered := .nil

theorem faithful_node {parts : List Sketch} (h : Parted source.toList parts) (rule : Rule)
    (htrees : trees = Tree.ofSketches source.toList.toArray parts []) :
    (Tree.node rule (Tree.span source.toList.toArray trees) trees).Faithful source where
  text := (isPiece_node source.toList rule trees).take_eq
  inside child hchild := by
    rw [Tree.children, htrees] at hchild
    have hcover := cover_ofSketches h.ne_nil h.all h.order
    rw [← htrees] at hcover
    have hne := leavesOf_ne_nil h.ne_nil h.all
    obtain ⟨first, last, start, stop, hfirst, hlast, hstart, hindex, hstop, hend⟩ :=
      (hcover.node hne h.order rule).edges hne
    cases hstart
    cases hstop
    obtain ⟨a, ha, b, hb, hstart, hstop⟩ := ends_of_mem_ofSketches h.all h.order hchild
    rw [hstart, hstop, hindex]
    exact ⟨(h.order.bounds hfirst hlast ha).1, (h.order.bounds hfirst hlast hb).2.trans_eq hend.symm⟩
  ordered := by
    rw [Tree.children, htrees]
    exact ordered_ofSketches h.all h.order

mutual

theorem token_of_mem_subtrees {kind : Terminal} {site : Site} :
    ∀ {tree : Tree}, .leaf kind site ∈ tree.subtrees → ⟨kind, site⟩ ∈ tree.tokens
  | .leaf .., h => by
    cases List.mem_singleton.mp h
    exact List.mem_singleton_self _
  | .node _ _ children, h => by
    rcases List.mem_cons.mp h with h | h
    · cases h
    · exact token_of_mem_subtreesOf h

theorem token_of_mem_subtreesOf {kind : Terminal} {site : Site} :
    ∀ {trees : List Tree}, .leaf kind site ∈ Tree.subtreesOf trees →
      ⟨kind, site⟩ ∈ Tree.tokensOf trees
  | tree :: trees, h => by
    rcases List.mem_append.mp h with h | h
    · exact List.mem_append_left _ (token_of_mem_subtrees h)
    · exact List.mem_append_right _ (token_of_mem_subtreesOf h)

end

theorem faithful_of_sketch {sketch : Sketch} (hparts : sketch.All HasParts)
    (horder : InOrder source.toList sketch.leaves) :
    ∀ node ∈ (Tree.ofSketch source.toList.toArray sketch).subtrees, node.Faithful source := by
  intro node hnode
  cases node with
  | leaf kind site =>
    have htoken := token_of_mem_subtrees hnode
    rw [tokens_ofSketch] at htoken
    exact faithful_leaf (horder.within _ htoken)
  | node rule site children =>
    obtain ⟨parts, hparts, hchildren, rfl, -⟩ :=
      node_of_mem_subtrees (all_parted hparts horder) hnode
    exact faithful_node hparts rule hchildren

theorem Tree.ofLines_eq_ofSketch (chars : Array Char) (lines : List Sketch) :
    ofLines chars lines = ofSketch chars (.node .script lines.reverse) := by
  rw [ofLines, ofSketch, ofSketches_eq, List.map_reverse, List.reverse_reverse, List.append_nil]

/--
In the tree of a source, each node has the text of its place, and its children stand inside of it,
one after the other. The leaves are the tokens of the source, and around them there are only blanks,
comments and line continuations.
-/
theorem parse_positions (h : parse source = .ok tree) :
    (∀ node ∈ tree.subtrees, node.Faithful source) ∧
      lex source = ⟨tree.tokens, none⟩ ∧ Laid 0 source.toList tree.tokens := by
  obtain ⟨tokens, lines, hlex, hread, rfl⟩ := parse_eq_ok.mp h
  have htokens := Tree.tokens_ofLines (script_of_readTokens hread) source.toList.toArray
  rw [← htokens] at hlex
  refine ⟨?_, hlex, laid_of_lexes (lex_eq_iff.mp hlex)⟩
  change ∀ node ∈ (Tree.ofLines source.toList.toArray lines).subtrees, node.Faithful source
  -- Without a line, the script has no token to start or stop with.
  by_cases hempty : lines = []
  · subst hempty
    refine List.forall_mem_singleton.mpr ⟨rfl, ?_, .nil⟩
    exact fun child hchild => absurd hchild List.not_mem_nil
  · have hparts := hasParts_of_readTokens hread
    rw [Tree.ofLines_eq_ofSketch] at hlex ⊢
    rw [tokens_ofSketch] at hlex
    refine faithful_of_sketch ⟨by simpa [HasParts] using hempty, ?_⟩ (inOrder_of_lex hlex)
    exact allOf_iff.mpr fun line hline => hparts line (List.mem_reverse.mp hline)

theorem parse_positions_comment : ∃ tree,
    parse "-x // minus" = .ok tree ∧ tree = .node .script ⟨"-x", 0⟩ [.node .line ⟨"-x", 0⟩
      [.node .prefixed ⟨"-x", 0⟩ [.leaf .minus ⟨"-", 0⟩, .leaf .identifier ⟨"x", 1⟩]]] ∧
      (∀ node ∈ tree.subtrees, node.Faithful "-x // minus") ∧
      lex "-x // minus" = ⟨tree.tokens, none⟩ ∧ Laid 0 "-x // minus".toList tree.tokens := by
  have hparse : parse "-x // minus" = .ok (.node .script ⟨"-x", 0⟩ [.node .line ⟨"-x", 0⟩
      [.node .prefixed ⟨"-x", 0⟩ [.leaf .minus ⟨"-", 0⟩, .leaf .identifier ⟨"x", 1⟩]]]) := by
    decide +kernel
  exact ⟨_, hparse, rfl, parse_positions hparse⟩

end Calculator.Grammar
