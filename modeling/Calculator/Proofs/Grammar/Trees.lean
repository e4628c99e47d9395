import Calculator.Grammar.Tree
import Calculator.Proofs.Grammar.Kinds
import Calculator.Proofs.Grammar.Window
import Mathlib.Data.List.Pairwise

/-!
# The trees of sketches

A tree goes from the start of its first token to the end of its last one, and its text is what
stands there. So a tree changes only in its places when its tokens are moved to another source, as
when its piece of the source is looked at alone.
-/

namespace Calculator

namespace Site

theorem shift_index (offset : Nat) (site : Site) :
    (site.shift offset).index = site.index + offset := rfl

/-- The place after its last character. -/
def stop (site : Site) : Nat := site.index + site.text.length

/-- From the start of one piece to the end of another one. -/
def between (source : Array Char) (first last : Site) : Site :=
  ⟨String.ofList (source.extract first.index last.stop).toList, first.index⟩

/-- Where a piece is after a move. -/
def relocate (move : Site → Site) (site : Site) : Site := move site

/-- Moves the pieces of a source to those of another one between the same characters. -/
def Maps (source other : List Char) (move : Site → Site) : Prop :=
  ∀ first last : Site, first.index < first.stop → last.index < last.stop →
    first.index < last.stop → last.stop ≤ source.length →
    (first.relocate move).between other.toArray (last.relocate move) =
      (first.between source.toArray last).relocate move

theorem maps_shift (before inside after : List Char) :
    Maps inside (before ++ (inside ++ after)) (shift before.length) := by
  intro first last _ _ hlt hlength
  have hstop : (last.shift before.length).stop = last.stop + before.length := by
    simp only [stop, shift]
    omega
  have hslice : ((before ++ (inside ++ after)).drop (first.index + before.length)).take
      (last.stop - first.index) = (inside.drop first.index).take (last.stop - first.index) := by
    rw [Nat.add_comm, List.drop_length_add_append, List.drop_append_of_le_length (by omega),
      List.take_append_of_le_length (by rw [List.length_drop]; omega)]
  simp only [relocate, between, hstop, shift_index, Array.toList_extract,
    List.extract_eq_take_drop, Nat.add_sub_add_right, hslice]
  rfl

end Site

namespace Grammar

/-- The same token at another place. -/
def Token.relocate (move : Site → Site) (token : Token) : Token :=
  { token with site := token.site.relocate move }

namespace Tree

mutual

def decEq : ∀ a b : Tree, Decidable (a = b)
  | .leaf kind site, .leaf kind' site' =>
    decidable_of_iff (kind = kind' ∧ site = site') (by simp)
  | .leaf .., .node .. => .isFalse (by simp)
  | .node .., .leaf .. => .isFalse (by simp)
  | .node rule site children, .node rule' site' children' =>
    haveI := decEqAll children children'
    decidable_of_iff (rule = rule' ∧ site = site' ∧ children = children') (by simp)

def decEqAll : ∀ as bs : List Tree, Decidable (as = bs)
  | [], [] => .isTrue rfl
  | [], _ :: _ => .isFalse (by simp)
  | _ :: _, [] => .isFalse (by simp)
  | a :: as, b :: bs =>
    haveI := decEq a b
    haveI := decEqAll as bs
    decidable_of_iff (a = b ∧ as = bs) (by simp)

end

instance : DecidableEq Tree := decEq

mutual

/-- The same tree further on in a source. -/
def shift (offset : Nat) : Tree → Tree
  | .leaf kind site => .leaf kind (site.shift offset)
  | .node rule site children => .node rule (site.shift offset) (shiftAll offset children)

def shiftAll (offset : Nat) : List Tree → List Tree
  | [] => []
  | tree :: trees => tree.shift offset :: shiftAll offset trees

end

theorem shiftAll_eq_map (offset : Nat) (trees : List Tree) :
    shiftAll offset trees = trees.map (shift offset) := by
  induction trees with
  | nil => rfl
  | cons tree trees ih => rw [shiftAll, ih, List.map_cons]

@[simp]
theorem site_shift (offset : Nat) (tree : Tree) :
    (tree.shift offset).site = tree.site.shift offset := by
  cases tree <;> rfl

mutual

/-- The same tree at other places. -/
def relocate (move : Site → Site) : Tree → Tree
  | .leaf kind site => .leaf kind (site.relocate move)
  | .node rule site children => .node rule (site.relocate move) (relocateAll move children)

def relocateAll (move : Site → Site) : List Tree → List Tree
  | [] => []
  | tree :: trees => tree.relocate move :: relocateAll move trees

end

theorem relocateAll_eq_map (move : Site → Site) (trees : List Tree) :
    relocateAll move trees = trees.map (relocate move) := by
  induction trees with
  | nil => rfl
  | cons tree trees ih => rw [relocateAll, ih, List.map_cons]

@[simp]
theorem site_relocate (move : Site → Site) (tree : Tree) :
    (tree.relocate move).site = tree.site.relocate move := by
  cases tree <;> rfl

mutual

theorem shift_eq_relocate (offset : Nat) : ∀ tree : Tree,
    tree.shift offset = tree.relocate (Site.shift offset)
  | .leaf _ _ => rfl
  | .node rule site children =>
    congrArg (node rule (site.shift offset)) (shiftAll_eq_relocateAll offset children)

theorem shiftAll_eq_relocateAll (offset : Nat) : ∀ trees : List Tree,
    shiftAll offset trees = relocateAll (Site.shift offset) trees
  | [] => rfl
  | tree :: trees =>
    congrArg₂ List.cons (shift_eq_relocate offset tree) (shiftAll_eq_relocateAll offset trees)

end

@[simp]
theorem site_node (rule : Rule) (site : Site) (children : List Tree) :
    (node rule site children).site = site := rfl

mutual

/-- The leaves, in their order. -/
def tokens : Tree → List Token
  | .leaf kind site => [⟨kind, site⟩]
  | .node _ _ children => tokensOf children

def tokensOf : List Tree → List Token
  | [] => []
  | tree :: trees => tree.tokens ++ tokensOf trees

end

mutual

/-- The tree itself and all trees inside of it. -/
def subtrees : Tree → List Tree
  | .leaf kind site => [.leaf kind site]
  | .node rule site children => .node rule site children :: subtreesOf children

def subtreesOf : List Tree → List Tree
  | [] => []
  | tree :: trees => tree.subtrees ++ subtreesOf trees

end

theorem tokensOf_append (a b : List Tree) : tokensOf (a ++ b) = tokensOf a ++ tokensOf b := by
  induction a with
  | nil => rfl
  | cons tree trees ih => rw [List.cons_append, tokensOf, ih, tokensOf, List.append_assoc]

theorem mem_subtreesOf {tree : Tree} {trees : List Tree} :
    tree ∈ subtreesOf trees ↔ ∃ child ∈ trees, tree ∈ child.subtrees := by
  induction trees with
  | nil => simp [subtreesOf]
  | cons child trees ih => simp [subtreesOf, ih]

mutual

theorem mem_subtrees_trans {inner outer : Tree} (hinner : inner ∈ outer.subtrees) :
    ∀ {tree : Tree}, outer ∈ tree.subtrees → inner ∈ tree.subtrees
  | .leaf _ _, h => by
    rwa [← List.mem_singleton.mp h]
  | .node _ _ children, h => by
    rcases List.mem_cons.mp h with rfl | h
    · exact hinner
    · exact List.mem_cons_of_mem _ (mem_subtreesOf_trans hinner h)

theorem mem_subtreesOf_trans {inner outer : Tree} (hinner : inner ∈ outer.subtrees) :
    ∀ {trees : List Tree}, outer ∈ subtreesOf trees → inner ∈ subtreesOf trees
  | _ :: _, h => by
    rcases List.mem_append.mp h with h | h
    · exact List.mem_append_left _ (mem_subtrees_trans hinner h)
    · exact List.mem_append_right _ (mem_subtreesOf_trans hinner h)

end

theorem mem_subtrees_self (tree : Tree) : tree ∈ tree.subtrees := by
  cases tree <;> exact List.mem_cons_self

theorem mem_subtrees_of_child {tree child : Tree} {rule : Rule} {site : Site}
    {children : List Tree} (hchild : child ∈ children)
    (h : .node rule site children ∈ tree.subtrees) : child ∈ tree.subtrees :=
  mem_subtrees_trans (List.mem_cons_of_mem _
    (mem_subtreesOf.mpr ⟨child, hchild, mem_subtrees_self child⟩)) h

theorem ofSketches_eq (source : Array Char) (sketches : List Sketch) (trees : List Tree) :
    ofSketches source sketches trees = (sketches.map (ofSketch source)).reverse ++ trees := by
  induction sketches generalizing trees with
  | nil => rfl
  | cons sketch sketches ih =>
    rw [ofSketches, ih, List.map_cons, List.reverse_cons, List.append_assoc]
    rfl

end Tree

open Grammar.Tree Sketch

/-! ## From the first token to the last one -/

/-- The token stands in the source where it says. -/
def Token.Within (source : List Char) (token : Token) : Prop :=
  ∃ before after, source = before ++ token.site.text.toList ++ after ∧
    token.site.index = before.length

/-- Tokens one after the other in the source. None of them is empty. -/
structure InOrder (source : List Char) (tokens : List Token) : Prop where
  within : ∀ token ∈ tokens, token.Within source
  ordered : tokens.Pairwise fun a b => a.stop ≤ b.site.index
  filled : ∀ token ∈ tokens, token.site.index < token.stop

/-- Trees that start and stop where the tokens do. None of them is empty. -/
structure Cover (tokens : List Token) (trees : List Tree) : Prop where
  start : trees.head?.map (·.site.index) = tokens.head?.map (·.site.index)
  stop : trees.getLast?.map Tree.stop = tokens.getLast?.map Token.stop
  filled : ∀ tree ∈ trees, tree.site.index < tree.stop

variable {source : List Char} {tokens : List Token} {trees : List Tree}

theorem Token.Within.stop_le {token : Token} (h : token.Within source) :
    token.stop ≤ source.length := by
  obtain ⟨before, after, rfl, hindex⟩ := h
  simp only [Token.stop, hindex, List.length_append, String.length_toList]
  omega

theorem InOrder.bounds {first last token : Token} (h : InOrder source tokens)
    (hfirst : tokens.head? = some first) (hlast : tokens.getLast? = some last)
    (hmem : token ∈ tokens) : first.site.index ≤ token.site.index ∧ token.stop ≤ last.stop := by
  have hboth : tokens.Pairwise fun a b => a.site.index ≤ b.site.index ∧ a.stop ≤ b.stop := by
    refine h.ordered.imp fun {a b} hab => ?_
    unfold Token.stop at hab ⊢
    omega
  have hne := List.ne_nil_of_mem hmem
  rw [List.head?_eq_some_head hne, Option.some.injEq] at hfirst
  rw [List.getLast?_eq_some_getLast hne, Option.some.injEq] at hlast
  rw [← hfirst, ← hlast]
  exact ⟨(hboth.rel_head_of_rel_head_head hmem ⟨le_rfl, le_rfl⟩).1,
    (hboth.rel_getLast_of_rel_getLast_getLast hmem ⟨le_rfl, le_rfl⟩).2⟩

theorem InOrder.start_lt_stop {first last : Token} (h : InOrder source tokens)
    (hfirst : tokens.head? = some first) (hlast : tokens.getLast? = some last) :
    first.site.index < last.stop := by
  have hmem := List.mem_of_getLast? hlast
  exact Nat.lt_of_le_of_lt (h.bounds hfirst hlast hmem).1 (h.filled last hmem)

theorem Cover.edges (h : Cover tokens trees) (hne : tokens ≠ []) : ∃ first last start stop,
    tokens.head? = some first ∧ tokens.getLast? = some last ∧
      trees.head? = some start ∧ start.site.index = first.site.index ∧
      trees.getLast? = some stop ∧ stop.stop = last.stop := by
  have hfirst := List.head?_eq_some_head hne
  have hlast := List.getLast?_eq_some_getLast hne
  have hstart := h.start
  have hstop := h.stop
  rw [hfirst, Option.map_some, Option.map_eq_some_iff] at hstart
  rw [hlast, Option.map_some, Option.map_eq_some_iff] at hstop
  obtain ⟨start, hstart, hindex⟩ := hstart
  obtain ⟨stop, hstop, hend⟩ := hstop
  exact ⟨_, _, start, stop, hfirst, hlast, hstart, hindex, hstop, hend⟩

theorem Cover.append {more : List Token} {others : List Tree} (h : Cover tokens trees)
    (hothers : Cover more others) (hne : tokens ≠ []) (hmore : more ≠ []) :
    Cover (tokens ++ more) (trees ++ others) := by
  obtain ⟨first, -, start, -, hfirst, -, hstart, hindex, -, -⟩ := h.edges hne
  obtain ⟨-, last, -, stop, -, hlast, -, -, hstop, hend⟩ := hothers.edges hmore
  constructor
  · simp [List.head?_append, hfirst, hstart, hindex]
  · simp [List.getLast?_append, hlast, hstop, hend]
  · exact fun tree htree => (List.mem_append.mp htree).elim (h.filled tree) (hothers.filled tree)

namespace Tree

theorem collapse_cases (source : Array Char) (rule : Rule) (trees : List Tree) :
    (∃ child, trees = [child] ∧ collapse source rule trees = child) ∨
      collapse source rule trees = .node rule (span source trees) trees := by
  unfold collapse
  split
  case h_1 child =>
    split
    · exact .inr rfl
    · exact .inl ⟨child, rfl, rfl⟩
  case h_2 => exact .inr rfl

theorem span_eq {source : Array Char} {first last : Tree} (hfirst : trees.head? = some first)
    (hlast : trees.getLast? = some last) :
    span source trees = first.site.between source last.site := by
  rw [span, hfirst, hlast]
  rfl

end Tree

theorem Cover.node (h : Cover tokens trees) (hne : tokens ≠ []) (horder : InOrder source tokens)
    (rule : Rule) : Cover tokens [.node rule (span source.toArray trees) trees] := by
  obtain ⟨first, last, start, stop, hfirst, hlast, hstart, hindex, hstop, hend⟩ := h.edges hne
  have hlt := horder.start_lt_stop hfirst hlast
  have hlength := (horder.within last (List.mem_of_getLast? hlast)).stop_le
  have hspan : (span source.toArray trees).index = first.site.index ∧
      (span source.toArray trees).stop = last.stop := by
    have hend : stop.site.stop = last.stop := hend
    rw [span_eq hstart hstop]
    refine ⟨hindex, ?_⟩
    rw [Site.between, Site.stop, hend, hindex, String.length_ofList, Array.length_toList,
      Array.size_extract, List.size_toArray]
    omega
  constructor
  · simp [hfirst, hspan.1]
  · rw [hlast]
    exact congrArg some hspan.2
  · rw [List.forall_mem_singleton]
    change (span source.toArray trees).index < (span source.toArray trees).stop
    rw [hspan.1, hspan.2]
    exact hlt

theorem Cover.collapse (h : Cover tokens trees) (hne : tokens ≠ []) (horder : InOrder source tokens)
    (rule : Rule) : Cover tokens [Tree.collapse source.toArray rule trees] := by
  rcases collapse_cases source.toArray rule trees with ⟨child, rfl, hchild⟩ | hnode
  · rw [hchild]
    exact h
  · rw [hnode]
    exact h.node hne horder rule

/-- Nodes are not empty. -/
def HasParts (_ : Rule) (parts : List Sketch) : Prop := parts ≠ []

mutual

theorem leaves_ne_nil : ∀ {sketch : Sketch}, sketch.All HasParts → sketch.leaves ≠ []
  | .leaf _, _ => List.cons_ne_nil _ _
  | .node _ _, h => leavesOf_ne_nil h.1 h.2

theorem leavesOf_ne_nil : ∀ {parts : List Sketch}, parts ≠ [] → AllOf HasParts parts →
    leavesOf parts ≠ []
  | [], hne, _ => absurd rfl hne
  | _ :: _, _, h => List.append_ne_nil_of_right_ne_nil _ (leaves_ne_nil h.1)

end

theorem InOrder.left {more : List Token} (h : InOrder source (tokens ++ more)) :
    InOrder source tokens :=
  ⟨fun t ht => h.within t (List.mem_append_left more ht), (List.pairwise_append.mp h.ordered).1,
    fun t ht => h.filled t (List.mem_append_left more ht)⟩

theorem InOrder.right {more : List Token} (h : InOrder source (tokens ++ more)) :
    InOrder source more :=
  ⟨fun t ht => h.within t (List.mem_append_right tokens ht),
    (List.pairwise_append.mp h.ordered).2.1,
    fun t ht => h.filled t (List.mem_append_right tokens ht)⟩

mutual

theorem cover_ofSketch : ∀ {sketch : Sketch}, sketch.All HasParts →
    InOrder source sketch.leaves → Cover sketch.leaves [ofSketch source.toArray sketch]
  | .leaf token, _, horder =>
    ⟨rfl, rfl, List.forall_mem_singleton.mpr (horder.filled token List.mem_cons_self)⟩
  | .node rule _, h, horder =>
    (cover_ofSketches h.1 h.2 horder).collapse (leavesOf_ne_nil h.1 h.2) horder rule

theorem cover_ofSketches : ∀ {parts : List Sketch}, parts ≠ [] → AllOf HasParts parts →
    InOrder source (leavesOf parts) → Cover (leavesOf parts) (ofSketches source.toArray parts [])
  | [], hne, _, _ => absurd rfl hne
  | [_], _, h, horder => cover_ofSketch h.1 horder
  | _ :: sketch :: sketches, _, h, horder => by
    -- The last sketch comes first.
    have hfirst := cover_ofSketches (List.cons_ne_nil sketch sketches) h.2 horder.left
    have hlast := cover_ofSketch h.1 horder.right
    rw [ofSketches, ofSketches_eq]
    rw [ofSketches_eq, List.append_nil] at hfirst
    exact hfirst.append hlast (leavesOf_ne_nil (List.cons_ne_nil _ _) h.2) (leaves_ne_nil h.1)

end

/-! ## Texts -/

/-- The text of a tree stands in the source where it says. -/
def Tree.IsPiece (source : List Char) (tree : Tree) : Prop :=
  tree.site.text.toList <+: source.drop tree.site.index

theorem isPiece_leaf {token : Token} (h : token.Within source) :
    (leaf token.kind token.site).IsPiece source := by
  obtain ⟨before, after, hsource, hindex⟩ := h
  change token.site.text.toList <+: source.drop token.site.index
  rw [hindex, hsource, List.append_assoc, List.drop_left]
  exact List.prefix_append _ _

theorem isPiece_node (source : List Char) (rule : Rule) (trees : List Tree) :
    (node rule (span source.toArray trees) trees).IsPiece source := by
  rw [IsPiece, site_node, span]
  split
  · simp only [String.toList_ofList, Array.toList_extract, List.extract_eq_take_drop]
    exact List.take_prefix _ _
  · exact List.nil_prefix

theorem isPiece_collapse (h : ∀ tree ∈ trees, tree.IsPiece source) (rule : Rule) :
    (collapse source.toArray rule trees).IsPiece source := by
  rcases collapse_cases source.toArray rule trees with ⟨child, rfl, hchild⟩ | hnode
  · rw [hchild]
    exact h child (List.mem_singleton_self child)
  · rw [hnode]
    exact isPiece_node source rule trees

mutual

theorem isPiece_ofSketch : ∀ {sketch : Sketch}, (∀ t ∈ sketch.leaves, t.Within source) →
    (ofSketch source.toArray sketch).IsPiece source
  | .leaf token, h => isPiece_leaf (h token (List.mem_singleton_self token))
  | .node rule _, h => isPiece_collapse (isPiece_ofSketches h) rule

theorem isPiece_ofSketches : ∀ {parts : List Sketch}, (∀ t ∈ leavesOf parts, t.Within source) →
    ∀ tree ∈ ofSketches source.toArray parts [], tree.IsPiece source
  | [], _ => by simp [ofSketches]
  | sketch :: sketches, h => by
    have hothers := isPiece_ofSketches fun t ht => h t (List.mem_append_left _ ht)
    have hlast := isPiece_ofSketch fun t ht => h t (List.mem_append_right _ ht)
    rw [ofSketches_eq, List.append_nil] at hothers
    intro tree htree
    rw [ofSketches, ofSketches_eq, List.mem_append, List.mem_singleton] at htree
    rcases htree with htree | rfl
    · exact hothers tree htree
    · exact hlast

end

/-! ## In another source -/

section

variable {other : List Char} {move : Site → Site}

theorem span_relocate (hmaps : Site.Maps source other move) (h : Cover tokens trees)
    (hne : tokens ≠ []) (horder : InOrder source tokens) :
    span other.toArray (Tree.relocateAll move trees) =
      (span source.toArray trees).relocate move := by
  obtain ⟨first, last, start, stop, hfirst, hlast, hstart, hindex, hstop, hend⟩ := h.edges hne
  have hlength := (horder.within last (List.mem_of_getLast? hlast)).stop_le
  have hlt := horder.start_lt_stop hfirst hlast
  rw [← hindex, ← hend] at hlt
  rw [← hend] at hlength
  have hhead : (Tree.relocateAll move trees).head? = some (start.relocate move) := by
    rw [Tree.relocateAll_eq_map, List.head?_map, hstart, Option.map_some]
  have hgetLast : (Tree.relocateAll move trees).getLast? = some (stop.relocate move) := by
    rw [Tree.relocateAll_eq_map, List.getLast?_map, hstop, Option.map_some]
  rw [span_eq hhead hgetLast, span_eq hstart hstop, site_relocate, site_relocate]
  exact hmaps _ _ (h.filled start (List.mem_of_head? hstart))
    (h.filled stop (List.mem_of_getLast? hstop)) hlt hlength

theorem collapse_relocate (hmaps : Site.Maps source other move) (h : Cover tokens trees)
    (hne : tokens ≠ []) (horder : InOrder source tokens) (rule : Rule) :
    Tree.collapse other.toArray rule (Tree.relocateAll move trees) =
      (Tree.collapse source.toArray rule trees).relocate move := by
  have hspan := span_relocate hmaps h hne horder
  cases trees with
  | nil => simpa [Tree.collapse, Tree.relocateAll, Tree.relocate] using hspan
  | cons child others =>
    cases others with
    | nil =>
      simp only [Tree.collapse, Tree.relocateAll] at hspan ⊢
      split
      · rw [hspan, Tree.relocate, Tree.relocateAll, Tree.relocateAll]
      · rfl
    | cons second others =>
      simp only [Tree.collapse, Tree.relocateAll] at hspan ⊢
      rw [hspan, Tree.relocate, Tree.relocateAll, Tree.relocateAll]

mutual

theorem ofSketch_relocate (hmaps : Site.Maps source other move) : ∀ {sketch : Sketch},
    sketch.All HasParts → InOrder source sketch.leaves →
    ofSketch other.toArray (sketch.map (Token.relocate move)) =
      (ofSketch source.toArray sketch).relocate move
  | .leaf _, _, _ => rfl
  | .node rule parts, h, horder => by
    rw [Sketch.map, ofSketch, ofSketches_relocate hmaps h.2 horder]
    exact collapse_relocate hmaps (cover_ofSketches h.1 h.2 horder) (leavesOf_ne_nil h.1 h.2)
      horder rule

theorem ofSketches_relocate (hmaps : Site.Maps source other move) : ∀ {parts : List Sketch},
    AllOf HasParts parts → InOrder source (leavesOf parts) →
    ofSketches other.toArray (Sketch.mapAll (Token.relocate move) parts) [] =
      Tree.relocateAll move (ofSketches source.toArray parts [])
  | [], _, _ => rfl
  | sketch :: sketches, h, horder => by
    have hothers := ofSketches_relocate hmaps h.2 horder.left
    have hlast := ofSketch_relocate hmaps h.1 horder.right
    rw [Sketch.mapAll, ofSketches, ofSketches, ofSketches_eq, ofSketches_eq, hlast]
    rw [ofSketches_eq, ofSketches_eq, List.append_nil, List.append_nil] at hothers
    rw [hothers]
    simp [Tree.relocateAll_eq_map]

end

end

/-! ## A piece looked at alone -/

mutual

theorem Sketch.shift_eq_map (offset : Nat) : ∀ sketch : Sketch,
    sketch.shift offset = sketch.map (Token.shift offset)
  | .leaf _ => rfl
  | .node rule parts => congrArg (Sketch.node rule) (shiftAll_eq_mapAll offset parts)

theorem Sketch.shiftAll_eq_mapAll (offset : Nat) : ∀ sketches : List Sketch,
    Sketch.shiftAll offset sketches = Sketch.mapAll (Token.shift offset) sketches
  | [] => rfl
  | sketch :: sketches =>
    congrArg₂ List.cons (shift_eq_map offset sketch) (shiftAll_eq_mapAll offset sketches)

end

variable {before inside after : List Char}

theorem ofSketch_shift {sketch : Sketch} (h : sketch.All HasParts)
    (horder : InOrder inside sketch.leaves) :
    ofSketch (before ++ (inside ++ after)).toArray (sketch.shift before.length) =
      (ofSketch inside.toArray sketch).shift before.length := by
  rw [Sketch.shift_eq_map, Tree.shift_eq_relocate]
  exact ofSketch_relocate (Site.maps_shift before inside after) h horder

/-! ## Inside of a tree -/

theorem tokens_collapse (source : Array Char) (rule : Rule) (trees : List Tree) :
    (Tree.collapse source rule trees).tokens = tokensOf trees := by
  rcases collapse_cases source rule trees with ⟨child, rfl, hchild⟩ | hnode
  · rw [hchild, tokensOf, tokensOf, List.append_nil]
  · rw [hnode, Tree.tokens]

section

variable {chars : Array Char}

mutual

theorem tokens_ofSketch : ∀ sketch : Sketch, (ofSketch chars sketch).tokens = sketch.leaves
  | .leaf _ => rfl
  | .node rule parts => (tokens_collapse chars rule _).trans (tokens_ofSketches parts)

theorem tokens_ofSketches : ∀ parts : List Sketch,
    tokensOf (ofSketches chars parts []) = leavesOf parts
  | [] => rfl
  | sketch :: sketches => by
    have hothers := tokens_ofSketches sketches
    rw [ofSketches_eq, List.append_nil] at hothers
    rw [ofSketches, ofSketches_eq, tokensOf_append, hothers, tokensOf, tokensOf, List.append_nil,
      tokens_ofSketch sketch, leavesOf]

end

/-- The node stands where its children stand, and may stay with them. -/
def Tree.Stays (chars : Array Char) (rule : Rule) (site : Site) (children : List Tree) : Prop :=
  site = span chars children ∧ (rule.staysAlone = true ∨ children.length ≠ 1)

/-- A node of a tree is a node of its sketch. -/
theorem mem_subtrees_collapse {rule rule' : Rule} {site : Site} {children : List Tree}
    (h : .node rule site children ∈ (Tree.collapse chars rule' trees).subtrees) :
    (rule = rule' ∧ children = trees ∧ Tree.Stays chars rule site children) ∨
      .node rule site children ∈ subtreesOf trees := by
  unfold Tree.collapse at h
  split at h
  case h_1 child =>
    split at h
    case isTrue halone =>
      rcases List.mem_cons.mp h with h | h
      · cases h
        exact .inl ⟨rfl, rfl, rfl, .inl halone⟩
      · exact .inr h
    case isFalse => exact .inr (mem_subtreesOf.mpr ⟨child, List.mem_singleton_self child, h⟩)
  case h_2 trees hmany =>
    rcases List.mem_cons.mp h with h | h
    · cases h
      refine .inl ⟨rfl, rfl, rfl, .inr fun hlength => ?_⟩
      obtain ⟨child, rfl⟩ := List.length_eq_one_iff.mp hlength
      exact hmany child rfl
    · exact .inr h

variable {P : Rule → List Sketch → Prop} {rule : Rule} {site : Site} {children : List Tree}

mutual

theorem node_of_mem_subtrees : ∀ {sketch : Sketch}, sketch.All P →
    .node rule site children ∈ (ofSketch chars sketch).subtrees →
      ∃ parts, P rule parts ∧ children = ofSketches chars parts [] ∧
        Tree.Stays chars rule site children
  | .leaf _, _, h => by cases List.mem_singleton.mp h
  | .node _ parts, hall, h => by
    rcases mem_subtrees_collapse h with ⟨rfl, hchildren, hstays⟩ | h
    · exact ⟨parts, hall.1, hchildren, hstays⟩
    · exact node_of_mem_subtreesOf hall.2 h

theorem node_of_mem_subtreesOf : ∀ {sketches : List Sketch}, AllOf P sketches →
    .node rule site children ∈ subtreesOf (ofSketches chars sketches []) →
      ∃ parts, P rule parts ∧ children = ofSketches chars parts [] ∧
        Tree.Stays chars rule site children
  | [], _, h => by cases h
  | sketch :: sketches, hall, h => by
    rw [ofSketches, ofSketches_eq, mem_subtreesOf] at h
    obtain ⟨child, hchild, h⟩ := h
    rcases List.mem_append.mp hchild with hchild | hchild
    · refine node_of_mem_subtreesOf hall.2 (mem_subtreesOf.mpr ⟨child, ?_, h⟩)
      rwa [ofSketches_eq, List.append_nil]
    · rw [List.mem_singleton.mp hchild] at h
      exact node_of_mem_subtrees hall.1 h

end

end

end Grammar

end Calculator
