import Calculator.Proofs.Grammar.Positions
import Calculator.Proofs.Grammar.SingleToken
import Mathlib.Data.List.Forall2

/-!
# What the children of a node are

The children of a node are spelled by an alternative of the grammar: there is one child for each of
its symbols, as often as its repetitions go round. A symbol says which role its child plays.
-/

namespace Calculator.Grammar

open Sketch

/-! ## Lists that alternatives spell -/

section

variable {α : Type} (may : Symbol → α → Prop)

/-- One item for each symbol of a round. -/
def Round (repetition : Repetition) (items : List α) : Prop :=
  ∃ symbols ∈ repetition.rounds, List.Forall₂ may symbols items

inductive Rounds (repetition : Repetition) : List α → Prop
  | last {first} : Round may repetition first → Rounds repetition first
  | next {first others} : Round may repetition first → Rounds repetition others →
      Rounds repetition (first ++ others)

/-- One item for each symbol that the parts come to. -/
inductive Spells : List Part → List α → Prop
  | nil : Spells [] []
  | one {s parts item items} : may s item → Spells parts items →
      Spells (.one s :: parts) (item :: items)
  | many {repetition parts rounds items} : Rounds may repetition rounds → Spells parts items →
      Spells (.many repetition :: parts) (rounds ++ items)

end

section

variable {α β : Type} {may : Symbol → α → Prop} {may' : Symbol → β → Prop} {R : α → β → Prop}
  {parts : List Part} {repetition : Repetition} {symbols : List Symbol} {items more : List α}

theorem Round.ne_nil (h : Round may repetition items) : items ≠ [] := by
  rintro rfl
  obtain ⟨symbols, hsymbols, hitems⟩ := h
  obtain rfl := List.forall₂_nil_right_iff.mp hitems
  exact Repetition.ne_nil_of_mem_rounds _ _ hsymbols rfl

theorem Rounds.ne_nil (h : Rounds may repetition items) : items ≠ [] := by
  cases h with
  | last hfirst => exact hfirst.ne_nil
  | next hfirst _ => exact List.append_ne_nil_of_left_ne_nil hfirst.ne_nil _

/-- What holds of the items behind the rounds still holds with the rounds before them. -/
theorem Rounds.prepend {P : List α → Prop}
    (hround : ∀ first others, Round may repetition first → P others → P (first ++ others))
    (h : Rounds may repetition items) (hmore : P more) : P (items ++ more) := by
  induction h with
  | last hfirst => exact hround _ _ hfirst hmore
  | next hfirst _ ih =>
    rw [List.append_assoc]
    exact hround _ _ hfirst ih

theorem forall₂_append_left {others : List β} (h : List.Forall₂ R (items ++ more) others) :
    ∃ first second, others = first ++ second ∧ List.Forall₂ R items first ∧
      List.Forall₂ R more second := by
  induction items generalizing others with
  | nil => exact ⟨[], others, rfl, .nil, h⟩
  | cons item items ih =>
    obtain ⟨other, others, hitem, hitems, rfl⟩ := List.forall₂_cons_left_iff.mp h
    obtain ⟨first, second, rfl, hfirst, hsecond⟩ := ih hitems
    exact ⟨other :: first, second, rfl, .cons hitem hfirst, hsecond⟩

namespace Spells

@[simp]
theorem nil_iff : Spells may [] items ↔ items = [] := by
  constructor
  · rintro ⟨⟩
    rfl
  · rintro rfl
    exact .nil

@[simp]
theorem one_iff {s : Symbol} : Spells may (.one s :: parts) items ↔
    ∃ item others, may s item ∧ Spells may parts others ∧ items = item :: others := by
  constructor
  · rintro (_ | ⟨hitem, hothers⟩)
    exact ⟨_, _, hitem, hothers, rfl⟩
  · rintro ⟨item, others, hitem, hothers, rfl⟩
    exact .one hitem hothers

@[simp]
theorem many_iff : Spells may (.many repetition :: parts) items ↔
    ∃ rounds others, Rounds may repetition rounds ∧ Spells may parts others ∧
      items = rounds ++ others := by
  constructor
  · rintro (_ | _ | ⟨hrounds, hothers⟩)
    exact ⟨_, _, hrounds, hothers, rfl⟩
  · rintro ⟨rounds, others, hrounds, hothers, rfl⟩
    exact .many hrounds hothers

theorem symbols_iff : Spells may (symbols.map .one ++ parts) items ↔
    ∃ round others, List.Forall₂ may symbols round ∧ Spells may parts others ∧
      items = round ++ others := by
  induction symbols generalizing items with
  | nil => simp
  | cons s symbols ih =>
    simp only [List.map_cons, List.cons_append, one_iff, ih, List.forall₂_cons_left_iff]
    constructor
    · rintro ⟨item, _, hitem, ⟨round, others, hround, hothers, rfl⟩, rfl⟩
      exact ⟨item :: round, others, ⟨item, round, hitem, hround, rfl⟩, hothers, rfl⟩
    · rintro ⟨_, others, ⟨item, round, hitem, hround, rfl⟩, hothers, rfl⟩
      exact ⟨item, round ++ others, hitem, ⟨round, others, hround, hothers, rfl⟩, rfl⟩

/-- Each item stands for a symbol. -/
theorem forall_mem {P : α → Prop} (hmay : ∀ s item, may s item → P item)
    (h : Spells may parts items) : ∀ item ∈ items, P item := by
  have hround : ∀ {repetition round}, Round may repetition round → ∀ item ∈ round, P item := by
    rintro repetition round ⟨symbols, -, hround⟩
    induction hround with
    | nil => exact List.forall_mem_nil _
    | cons hitem _ ih => exact List.forall_mem_cons.mpr ⟨hmay _ _ hitem, ih⟩
  induction h with
  | nil => exact List.forall_mem_nil _
  | one hitem _ ih => exact List.forall_mem_cons.mpr ⟨hmay _ _ hitem, ih⟩
  | many hrounds _ ih =>
    refine hrounds.prepend (P := fun items => ∀ item ∈ items, P item) ?_ ih
    exact fun first others hfirst hothers => List.forall_mem_append.mpr ⟨hround hfirst, hothers⟩

theorem length_le (h : Spells may parts items) : parts.length ≤ items.length := by
  induction h with
  | nil => exact Nat.le_refl _
  | one _ _ ih => exact Nat.succ_le_succ ih
  | many hrounds _ ih =>
    have hpos := List.length_pos_iff.mpr hrounds.ne_nil
    rw [List.length_cons, List.length_append]
    omega

end Spells

/-! What is related to spelled items is spelled as well. -/

section

variable {others : List β} (hmay : ∀ s a b, may s a → R a b → may' s b)

include hmay

theorem forall₂_transfer (h : List.Forall₂ may symbols items)
    (hothers : List.Forall₂ R items others) : List.Forall₂ may' symbols others := by
  induction h generalizing others with
  | nil => rw [List.forall₂_nil_left_iff.mp hothers]; exact .nil
  | cons hitem _ ih =>
    obtain ⟨other, rest, hother, hrest, rfl⟩ := List.forall₂_cons_left_iff.mp hothers
    exact .cons (hmay _ _ _ hitem hother) (ih hrest)

theorem Rounds.transfer (h : Rounds may repetition items)
    (hothers : List.Forall₂ R items others) : Rounds may' repetition others := by
  induction h generalizing others with
  | last hfirst =>
    obtain ⟨symbols, hsymbols, hfirst⟩ := hfirst
    exact .last ⟨symbols, hsymbols, forall₂_transfer hmay hfirst hothers⟩
  | next hfirst _ ih =>
    obtain ⟨symbols, hsymbols, hfirst⟩ := hfirst
    obtain ⟨first, second, rfl, hothers, hmore⟩ := forall₂_append_left hothers
    exact .next ⟨symbols, hsymbols, forall₂_transfer hmay hfirst hothers⟩ (ih hmore)

theorem Spells.transfer (h : Spells may parts items) (hothers : List.Forall₂ R items others) :
    Spells may' parts others := by
  induction h generalizing others with
  | nil => rw [List.forall₂_nil_left_iff.mp hothers]; exact .nil
  | one hitem _ ih =>
    obtain ⟨other, rest, hother, hrest, rfl⟩ := List.forall₂_cons_left_iff.mp hothers
    exact .one (hmay _ _ _ hitem hother) (ih hrest)
  | many hrounds _ ih =>
    obtain ⟨first, second, rfl, hfirst, hsecond⟩ := forall₂_append_left hothers
    exact .many (hrounds.transfer hmay hfirst) (ih hsecond)

end

end

/-! ## Roles -/

/-- What a tree is to the node above it. -/
inductive Role where
  /-- A token that stands for itself. -/
  | mark (kind : Terminal)
  | value
  /-- Several values with commas between them. -/
  | values
  | entry
  | target
  | decorator
  /-- A line, or all of them. No node but a script has one inside. -/
  | line
  deriving DecidableEq, Repr

def Terminal.role (kind : Terminal) : Role := if kind.isOperand then .value else .mark kind

def Rule.role : Rule → Role
  | .arguments => .values
  | .entry => .entry
  | .indexedTarget => .target
  | .decorator => .decorator
  | .script | .line => .line
  | _ => .value

def Tree.role : Tree → Role
  | .leaf kind _ => kind.role
  | .node rule _ _ => rule.role

/-- The roles of what a nonterminal stands for. A single argument is no more than a value. -/
def Nonterminal.roles : Nonterminal → List Role
  | comparator => [.mark .eq, .mark .ne, .mark .le, .mark .ge, .mark .lt, .mark .gt]
  | arguments => [.value, .values]
  | entry => [.entry]
  | indexedTarget => [.target]
  | decorator => [.decorator]
  | _ => [.value]

def Symbol.roles : Symbol → List Role
  | terminal kind => [kind.role]
  | nonterminal n => n.roles

/-- The trees that may stand for a symbol. -/
def Symbol.May : Symbol → Tree → Prop
  | terminal kind, tree => ∃ site, tree = .leaf kind site
  | nonterminal n, tree => tree.role ∈ n.roles

variable {chars : Array Char} {source : String} {tree : Tree} {trees children : List Tree}
  {n : Nonterminal} {alternative parts : List Part} {tokens rest : List Token}
  {sketches first second : List Sketch} {rule : Rule} {site : Site}

theorem Symbol.May.role_mem : ∀ {s : Symbol}, s.May tree → tree.role ∈ s.roles
  | .terminal kind, h => by
    obtain ⟨site, rfl⟩ := h
    exact List.mem_singleton_self _
  | .nonterminal _, h => h

/-! ### What the grammar says about roles -/

/-- What may give way to a single child has the roles of the child. -/
theorem roles_of_single (n : Nonterminal) (hline : n ≠ .lineBody)
    (hgives : ∀ rule ∈ n.rule?, rule.staysAlone = false) :
    ∀ alternative ∈ n.alternatives, alternative.length = 1 →
      ∃ s ∈ alternative.flatMap Part.symbols, alternative = [.one s] ∧ s.roles ⊆ n.roles := by
  revert hline hgives
  cases n <;> decide

theorem role_mem_of_rule (n : Nonterminal) : ∀ rule ∈ n.rule?, rule.role ∈ n.roles := by
  cases n <;> decide

theorem length_of_rule_none (n : Nonterminal) (hline : n ≠ .lineBody) (hrule : n.rule? = none) :
    ∀ alternative ∈ n.alternatives, alternative.length = 1 := by
  revert hline hrule
  cases n <;> decide

theorem lineBody_not_mem (n : Nonterminal) :
    ∀ alternative ∈ n.alternatives, Part.node .lineBody ∉ alternative := by
  cases n <;> decide

theorem lineBody_not_mem_round (repetition : Repetition) :
    ∀ round ∈ repetition.rounds, Part.node .lineBody ∉ round.map Part.one := by
  cases repetition <;> decide

theorem role_of_single (hline : n ≠ .lineBody)
    (hgives : ∀ rule ∈ n.rule?, rule.staysAlone = false) (hmem : alternative ∈ n.alternatives)
    (hone : alternative.length = 1) (h : Spells Symbol.May alternative trees) :
    ∃ tree, trees = [tree] ∧ tree.role ∈ n.roles := by
  obtain ⟨s, -, rfl, hroles⟩ := roles_of_single n hline hgives alternative hmem hone
  obtain ⟨tree, _, hmay, hnil, rfl⟩ := Spells.one_iff.mp h
  obtain rfl := Spells.nil_iff.mp hnil
  exact ⟨tree, rfl, hroles hmay.role_mem⟩

/-! ### From derivations to trees -/

theorem ofSketches_append : Tree.ofSketches chars (second ++ first) [] =
    Tree.ofSketches chars first [] ++ Tree.ofSketches chars second [] := by
  simp [Tree.ofSketches_eq]

/-- What a nonterminal stands for is one tree, and it plays a role of the nonterminal. -/
theorem ofSketches_wrap (hline : n ≠ .lineBody) (hmem : alternative ∈ n.alternatives)
    (h : Spells Symbol.May alternative (Tree.ofSketches chars sketches [])) :
    ∃ tree, Tree.ofSketches chars (n.wrap sketches) [] = [tree] ∧ tree.role ∈ n.roles := by
  cases hrule : n.rule? with
  | none =>
    have hgives : ∀ rule ∈ n.rule?, rule.staysAlone = false := by simp [hrule]
    have hone := length_of_rule_none n hline hrule alternative hmem
    rw [Nonterminal.wrap, hrule]
    exact role_of_single hline hgives hmem hone h
  | some rule =>
    have hwrap : Tree.ofSketches chars (n.wrap sketches) [] =
        [Tree.collapse chars rule (Tree.ofSketches chars sketches [])] := by
      rw [Nonterminal.wrap, hrule]
      rfl
    refine ⟨_, hwrap, ?_⟩
    have hown := role_mem_of_rule n rule hrule
    unfold Tree.collapse
    split
    case h_1 child hchild =>
      split
      case isTrue => exact hown
      case isFalse halone =>
        -- The node gives way to its only child, which plays its role as well.
        have hgives : ∀ rule ∈ n.rule?, rule.staysAlone = false := by
          simpa [hrule] using halone
        have hlength := h.length_le
        rw [hchild, List.length_singleton] at hlength
        have hpos := List.length_pos_iff.mpr (Nonterminal.ne_nil_of_mem_alternatives _ _ hmem)
        obtain ⟨tree, htree, hrole⟩ := role_of_single hline hgives hmem (by omega) h
        rw [hchild] at htree
        cases htree
        exact hrole
    case h_2 => exact hown

theorem spells_of_derives (hline : Part.node .lineBody ∉ parts)
    (h : Derives Grammatical parts tokens sketches rest) :
    Spells Symbol.May parts (Tree.ofSketches chars sketches []) := by
  induction h with
  | nil => exact .nil
  | token hkind _ ih =>
    subst hkind
    rw [ofSketches_append]
    exact .one ⟨_, rfl⟩ (ih (List.not_mem_of_not_mem_cons hline))
  | @node n alternative parts tokens between inside sketches rest hmay _ _ ihfirst ihothers =>
    have hn : n ≠ .lineBody := by
      rintro rfl
      exact hline List.mem_cons_self
    have hinside := ihfirst (lineBody_not_mem n alternative hmay)
    obtain ⟨tree, htree, hrole⟩ := ofSketches_wrap hn hmay hinside
    rw [ofSketches_append, htree]
    exact .one hrole (ihothers (List.not_mem_of_not_mem_cons hline))
  | @lastRound repetition round parts tokens sketches rest hround _ ih =>
    have hparts : Part.node .lineBody ∉ round.map Part.one ++ parts :=
      List.not_mem_append (lineBody_not_mem_round _ _ hround) (List.not_mem_of_not_mem_cons hline)
    obtain ⟨first, others, hfirst, hothers, htrees⟩ := Spells.symbols_iff.mp (ih hparts)
    rw [htrees]
    exact .many (.last ⟨round, hround, hfirst⟩) hothers
  | @nextRound repetition round parts tokens sketches rest hround _ ih =>
    have hparts : Part.node .lineBody ∉ round.map Part.one ++ .many repetition :: parts :=
      List.not_mem_append (lineBody_not_mem_round _ _ hround) hline
    obtain ⟨first, _, hfirst, hmany, htrees⟩ := Spells.symbols_iff.mp (ih hparts)
    obtain ⟨rounds, others, hrounds, hothers, rfl⟩ := Spells.many_iff.mp hmany
    rw [htrees, ← List.append_assoc]
    exact .many (.next ⟨round, hround, hfirst⟩ hrounds) hothers

/-! ## Whole trees -/

/--
What the children of a node are: the lines of a script, the body of a line and its newline, or what
an alternative spells.
-/
def Shape (rule : Rule) (children : List Tree) : Prop :=
  match rule with
  | .script => ∀ child ∈ children, ∃ site parts, child = .node .line site parts
  | .line => ∃ body newline, children = body ++ newline ∧
      (body = [] ∨ ∃ alternative ∈ Nonterminal.lineBody.alternatives,
        Spells Symbol.May alternative body) ∧
      (newline = [] ∨ ∃ site, newline = [.leaf .newline site])
  | rule => ∃ n : Nonterminal, n.rule? = some rule ∧ ∃ alternative ∈ n.alternatives,
      Spells Symbol.May alternative children

theorem shape_iff (hscript : rule ≠ .script) (hline : rule ≠ .line) : Shape rule children ↔
    ∃ n : Nonterminal, n.rule? = some rule ∧ ∃ alternative ∈ n.alternatives,
      Spells Symbol.May alternative children := by
  cases rule <;> first | rfl | contradiction

theorem shape_of_rule (hrule : n.rule? = some rule) (hmem : alternative ∈ n.alternatives)
    (h : Spells Symbol.May alternative children) : Shape rule children := by
  refine (shape_iff ?_ ?_).mpr ⟨n, hrule, alternative, hmem, h⟩
  · rintro rfl
    cases n <;> cases hrule
  · rintro rfl
    cases n <;> cases hrule

/-- A rule has one nonterminal, but for three that are written twice. -/
theorem eq_of_rule {m : Nonterminal} (hsole : rule ∉ [Rule.indexed, .postfixed, .power])
    (hm : m.rule? = some rule) (hn : n.rule? = some rule) : m = n := by
  cases m <;> cases hm <;> first
    | exact absurd hsole (by decide)
    | cases n <;> first | rfl | cases hn

theorem spelled_by {α : Type} {may : Symbol → α → Prop} {items : List α} (n : Nonterminal)
    (hn : n.rule? = some rule) (hsole : rule ∉ [Rule.indexed, .postfixed, .power])
    (h : ∃ m : Nonterminal, m.rule? = some rule ∧ ∃ alternative ∈ m.alternatives,
      Spells may alternative items) :
    ∃ alternative ∈ n.alternatives, Spells may alternative items := by
  obtain ⟨m, hm, hspells⟩ := h
  rwa [eq_of_rule hsole hm hn] at hspells

/-- Only a script has lines inside. -/
theorem Symbol.May.role_ne_line {s : Symbol} (h : s.May tree) : tree.role ≠ .line := by
  have hroles : Role.line ∉ s.roles := by
    cases s with
    | terminal kind => cases kind <;> decide
    | nonterminal n => cases n <;> decide
  exact fun hline => hroles (hline ▸ h.role_mem)

theorem Shape.role_ne_line (hscript : rule ≠ .script) (h : Shape rule children) :
    ∀ child ∈ children, child.role ≠ .line := by
  by_cases hline : rule = .line
  · subst hline
    obtain ⟨body, newline, rfl, hbody, hnewline⟩ := h
    refine List.forall_mem_append.mpr ⟨?_, ?_⟩
    · rcases hbody with rfl | ⟨_, _, hspells⟩
      · exact List.forall_mem_nil _
      · exact hspells.forall_mem fun _ _ => Symbol.May.role_ne_line
    · rcases hnewline with rfl | ⟨site, rfl⟩
      · exact List.forall_mem_nil _
      · exact List.forall_mem_singleton.mpr nofun
  · obtain ⟨_, _, _, _, hspells⟩ := (shape_iff hscript hline).mp h
    exact hspells.forall_mem fun _ _ => Symbol.May.role_ne_line

theorem shape_of_derives (h : Derives Grammatical parts tokens sketches rest) :
    AllOf (fun rule parts => Shape rule (Tree.ofSketches chars parts [])) sketches := by
  induction h with
  | nil => exact trivial
  | token _ _ ih => exact allOf_append.mpr ⟨ih, trivial, trivial⟩
  | @node n alternative parts tokens between inside sketches rest hmay first _ ihfirst ihothers =>
    refine allOf_append.mpr ⟨ihothers, ?_⟩
    have hspells : Spells Symbol.May alternative (Tree.ofSketches chars inside []) :=
      spells_of_derives (lineBody_not_mem n alternative hmay) first
    unfold Nonterminal.wrap
    split
    case h_1 rule hrule => exact ⟨⟨shape_of_rule hrule hmay hspells, ihfirst⟩, trivial⟩
    case h_2 => exact ihfirst
  | lastRound _ _ ih => exact ih
  | nextRound _ _ ih => exact ih

/-- The parts of a line, of which the newline comes first. -/
theorem shape_of_line {mark : List Sketch} (hmark : mark = [] ∨ ∃ token, token.kind = .newline ∧
      mark = [.leaf token])
    (hbody : sketches = [] ∨
      ∃ tokens, Derives Grammatical [.node .lineBody] tokens sketches []) :
    Sketch.All (fun rule parts => Shape rule (Tree.ofSketches chars parts []))
      (.node .line (mark ++ sketches)) := by
  refine ⟨⟨Tree.ofSketches chars sketches [], Tree.ofSketches chars mark [], ofSketches_append,
    ?_, ?_⟩, allOf_append.mpr ⟨?_, ?_⟩⟩
  · rcases hbody with rfl | ⟨_, hbody⟩
    · exact .inl rfl
    · obtain ⟨alternative, inside, hmay, hinside, rfl⟩ := Derives.node_iff.mp hbody
      exact .inr ⟨alternative, hmay, spells_of_derives (lineBody_not_mem _ _ hmay) hinside⟩
  · rcases hmark with rfl | ⟨token, hkind, rfl⟩
    · exact .inl rfl
    · exact .inr ⟨token.site, by rw [← hkind]; rfl⟩
  · rcases hmark with rfl | ⟨token, -, rfl⟩
    · exact trivial
    · exact ⟨trivial, trivial⟩
  · rcases hbody with rfl | ⟨_, hbody⟩
    · exact trivial
    · exact shape_of_derives hbody

theorem shape_of_script (chars : Array Char) {lines : List Sketch} (h : Script tokens lines) :
    ∀ line ∈ lines, (∃ parts, line = .node .line parts) ∧
      line.All fun rule parts => Shape rule (Tree.ofSketches chars parts []) := by
  induction h with
  | nil => simp
  | last hbody =>
    exact List.forall_mem_singleton.mpr ⟨⟨_, rfl⟩, shape_of_line (.inl rfl) (.inr ⟨_, hbody⟩)⟩
  | blank hnewline _ ih =>
    refine List.forall_mem_cons.mpr ⟨⟨⟨_, rfl⟩, ?_⟩, ih⟩
    exact shape_of_line (.inr ⟨_, hnewline, rfl⟩) (.inl rfl)
  | line hbody hnewline _ ih =>
    refine List.forall_mem_cons.mpr ⟨⟨⟨_, rfl⟩, ?_⟩, ih⟩
    exact shape_of_line (.inr ⟨_, hnewline, rfl⟩) (.inr ⟨_, hbody⟩)

/-- Each node of a tree has the children that the grammar gives it. -/
theorem shape_of_parse (h : parse source = .ok tree)
    (hnode : .node rule site children ∈ tree.subtrees) :
    Shape rule children ∧ (rule.staysAlone ∨ children.length ≠ 1) := by
  obtain ⟨tokens, lines, hlex, hread, rfl⟩ := parse_eq_ok.mp h
  have hlines := shape_of_script source.toList.toArray (script_of_readTokens hread)
  change _ ∈ (Tree.ofLines source.toList.toArray lines).subtrees at hnode
  rw [Tree.ofLines_eq_ofSketch] at hnode
  have hall : Sketch.All (fun rule parts =>
      Shape rule (Tree.ofSketches source.toList.toArray parts []))
      (.node .script lines.reverse) := by
    refine ⟨?_, allOf_iff.mpr fun line hline => (hlines line (List.mem_reverse.mp hline)).2⟩
    intro child hchild
    rw [Tree.ofSketches_eq, List.append_nil, List.mem_reverse, List.mem_map] at hchild
    obtain ⟨line, hline, rfl⟩ := hchild
    obtain ⟨⟨parts, rfl⟩, -⟩ := hlines line (List.mem_reverse.mp hline)
    rw [Tree.ofSketch]
    unfold Tree.collapse
    split
    · exact ⟨_, _, rfl⟩
    · exact ⟨_, _, rfl⟩
  obtain ⟨parts, hshape, rfl, -, hstays⟩ := node_of_mem_subtrees hall hnode
  exact ⟨hshape, hstays⟩

end Calculator.Grammar
