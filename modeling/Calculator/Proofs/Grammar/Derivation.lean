import Calculator.Proofs.Grammar.Lines

/-!
# Derivations

A derivation says what the parts of an alternative stand for, whatever a parser does. It goes from
some tokens to those that are left behind the parts. A script is made of lines that end in newlines,
and of a last line that does not have to.
-/

namespace Calculator.Grammar

open Sketch

/-! ## The nodes of a sketch -/

namespace Sketch

mutual

/-- How many nodes of the kind there are. -/
def nodes (rule : Rule) : Sketch → Nat
  | .leaf _ => 0
  | .node r parts => nodesOf rule parts + if r = rule then 1 else 0

def nodesOf (rule : Rule) : List Sketch → Nat
  | [] => 0
  | sketch :: sketches => nodesOf rule sketches + sketch.nodes rule

end

theorem nodesOf_append (rule : Rule) (first second : List Sketch) :
    nodesOf rule (second ++ first) = nodesOf rule first + nodesOf rule second := by
  induction second with
  | nil => simp [nodesOf]
  | cons sketch sketches ih => rw [List.cons_append, nodesOf, ih, nodesOf, Nat.add_assoc]

end Sketch

theorem nodesOf_wrap (rule : Rule) (n : Nonterminal) (parts : List Sketch) :
    nodesOf rule (n.wrap parts) = nodesOf rule parts + if n.rule? = some rule then 1 else 0 := by
  unfold Nonterminal.wrap
  cases n.rule? with
  | none => simp
  | some r => simp [nodesOf, nodes]

/-! ## What derives what -/

/-- The alternatives that a nonterminal may stand for, where the tokens come after it. -/
abbrev Choice := Nonterminal → List Part → List Token → Prop

/-- All alternatives of the grammar. -/
def Grammatical : Choice := fun n alternative _ => alternative ∈ n.alternatives

/--
From the first tokens on, the parts stand for all up to those that are left. The last sketch comes
first.
-/
inductive Derives (may : Choice) : List Part → List Token → List Sketch → List Token → Prop
  | nil {tokens} : Derives may [] tokens [] tokens
  | token {kind token parts tokens sketches rest} (hkind : token.kind = kind)
      (others : Derives may parts tokens sketches rest) :
      Derives may (.leaf kind :: parts) (token :: tokens) (sketches ++ [.leaf token]) rest
  | node {n alternative parts tokens between inside sketches rest}
      (hmay : may n alternative between)
      (first : Derives may alternative tokens inside between)
      (others : Derives may parts between sketches rest) :
      Derives may (.node n :: parts) tokens (sketches ++ n.wrap inside) rest
  | lastRound {repetition round parts tokens sketches rest}
      (hround : round ∈ repetition.rounds)
      (others : Derives may (round.map .one ++ parts) tokens sketches rest) :
      Derives may (.many repetition :: parts) tokens sketches rest
  | nextRound {repetition round parts tokens sketches rest}
      (hround : round ∈ repetition.rounds)
      (others : Derives may (round.map .one ++ .many repetition :: parts) tokens sketches rest) :
      Derives may (.many repetition :: parts) tokens sketches rest

/-- Lines, each of them with its newline but the last one. -/
inductive Script : List Token → List Sketch → Prop
  | nil : Script [] []
  | last {body sketches} (hbody : Derives Grammatical [.node .lineBody] body sketches []) :
      Script body [.node .line sketches]
  | blank {newline tokens lines} (hnewline : newline.kind = .newline)
      (others : Script tokens lines) :
      Script (newline :: tokens) (.node .line [.leaf newline] :: lines)
  | line {body sketches newline tokens lines}
      (hbody : Derives Grammatical [.node .lineBody] body sketches [])
      (hnewline : newline.kind = .newline) (others : Script tokens lines) :
      Script (body ++ newline :: tokens) (.node .line (.leaf newline :: sketches) :: lines)

variable {may other : Choice} {parts first second : List Part} {n : Nonterminal}
  {tokens between rest : List Token} {sketches later : List Sketch}

namespace Derives

/-! ## Putting together and taking apart -/

theorem mono (h : ∀ n alternative left, may n alternative left → other n alternative left)
    (hder : Derives may parts tokens sketches rest) :
    Derives other parts tokens sketches rest := by
  induction hder with
  | nil => exact .nil
  | token hkind _ ih => exact .token hkind ih
  | node hmay _ _ ihfirst ihothers => exact .node (h _ _ _ hmay) ihfirst ihothers
  | lastRound hround _ ih => exact .lastRound hround ih
  | nextRound hround _ ih => exact .nextRound hround ih

theorem append (hfirst : Derives may first tokens sketches between)
    (hsecond : Derives may second between later rest) :
    Derives may (first ++ second) tokens (later ++ sketches) rest := by
  induction hfirst with
  | nil => simpa using hsecond
  | token hkind _ ih =>
    rw [← List.append_assoc]
    exact .token hkind (ih hsecond)
  | node hmay hinside _ _ ih =>
    rw [← List.append_assoc]
    exact .node hmay hinside (ih hsecond)
  | lastRound hround _ ih =>
    refine .lastRound hround ?_
    rw [List.append_eq, ← List.append_assoc]
    exact ih hsecond
  | nextRound hround _ ih =>
    refine .nextRound hround ?_
    rw [List.append_eq, ← List.cons_append, ← List.append_assoc]
    exact ih hsecond

theorem split (h : Derives may (first ++ second) tokens sketches rest) :
    ∃ between earlier later, sketches = later ++ earlier ∧
      Derives may first tokens earlier between ∧ Derives may second between later rest := by
  generalize hparts : first ++ second = parts at h
  induction h generalizing first with
  | nil =>
    obtain ⟨rfl, rfl⟩ := List.append_eq_nil_iff.mp hparts
    exact ⟨_, [], [], rfl, .nil, .nil⟩
  | token hkind others ih =>
    rcases List.append_eq_cons_iff.mp hparts with ⟨rfl, rfl⟩ | ⟨first, rfl, rfl⟩
    · exact ⟨_, [], _, (List.append_nil _).symm, .nil, .token hkind others⟩
    · obtain ⟨between, earlier, later, rfl, hfirst, hsecond⟩ := ih rfl
      exact ⟨between, _, later, List.append_assoc _ _ _, .token hkind hfirst, hsecond⟩
  | node hmay hinside others _ ih =>
    rcases List.append_eq_cons_iff.mp hparts with ⟨rfl, rfl⟩ | ⟨first, rfl, rfl⟩
    · exact ⟨_, [], _, (List.append_nil _).symm, .nil, .node hmay hinside others⟩
    · obtain ⟨between, earlier, later, rfl, hfirst, hsecond⟩ := ih rfl
      exact ⟨between, _, later, List.append_assoc _ _ _, .node hmay hinside hfirst, hsecond⟩
  | lastRound hround others ih =>
    rcases List.append_eq_cons_iff.mp hparts with ⟨rfl, rfl⟩ | ⟨first, rfl, rfl⟩
    · exact ⟨_, [], _, (List.append_nil _).symm, .nil, .lastRound hround others⟩
    · obtain ⟨between, earlier, later, rfl, hfirst, hsecond⟩ := ih (List.append_assoc _ _ _)
      exact ⟨between, earlier, later, rfl, .lastRound hround hfirst, hsecond⟩
  | nextRound hround others ih =>
    rcases List.append_eq_cons_iff.mp hparts with ⟨rfl, rfl⟩ | ⟨first, rfl, rfl⟩
    · exact ⟨_, [], _, (List.append_nil _).symm, .nil, .nextRound hround others⟩
    · obtain ⟨between, earlier, later, rfl, hfirst, hsecond⟩ := ih (List.append_assoc _ (_ :: _) _)
      exact ⟨between, earlier, later, rfl, .nextRound hround hfirst, hsecond⟩

theorem cons_split {part : Part} (h : Derives may (part :: parts) tokens sketches rest) :
    ∃ between earlier later, sketches = later ++ earlier ∧
      Derives may [part] tokens earlier between ∧ Derives may parts between later rest := by
  rw [← List.singleton_append] at h
  exact h.split

@[simp]
theorem nil_iff : Derives may [] tokens sketches rest ↔ sketches = [] ∧ tokens = rest := by
  constructor
  · rintro ⟨⟩
    exact ⟨rfl, rfl⟩
  · rintro ⟨rfl, rfl⟩
    exact .nil

theorem leaf_iff {kind : Terminal} : Derives may [.leaf kind] tokens sketches rest ↔
    ∃ token, token.kind = kind ∧ tokens = token :: rest ∧ sketches = [.leaf token] := by
  constructor
  · intro h
    cases h with
    | token hkind others =>
      cases others
      exact ⟨_, hkind, rfl, rfl⟩
  · rintro ⟨token, hkind, rfl, rfl⟩
    exact .token hkind .nil

theorem leaf_cons_iff {kind : Terminal} :
    Derives may (.leaf kind :: parts) tokens sketches rest ↔ ∃ token left later,
      token.kind = kind ∧ tokens = token :: left ∧ sketches = later ++ [.leaf token] ∧
        Derives may parts left later rest := by
  constructor
  · intro h
    cases h with
    | token hkind others => exact ⟨_, _, _, hkind, rfl, rfl, others⟩
  · rintro ⟨token, left, later, hkind, rfl, rfl, others⟩
    exact .token hkind others

theorem node_iff : Derives may [.node n] tokens sketches rest ↔
    ∃ alternative inside, may n alternative rest ∧
      Derives may alternative tokens inside rest ∧ sketches = n.wrap inside := by
  constructor
  · intro h
    cases h with
    | node hmay first others =>
      cases others
      exact ⟨_, _, hmay, first, rfl⟩
  · rintro ⟨alternative, inside, hmay, h, rfl⟩
    exact .node hmay h .nil

/-- A round after rounds is one round more. -/
theorem many_append {repetition : Repetition} {round : List Symbol}
    (hmany : Derives may [.many repetition] tokens sketches between)
    (hmem : round ∈ repetition.rounds)
    (hround : Derives may (round.map .one) between later rest) :
    Derives may [.many repetition] tokens (later ++ sketches) rest := by
  have hlast : Derives may [.many repetition] between later rest :=
    .lastRound hmem (by rwa [List.append_nil])
  -- The repetition stays the last part while its rounds are taken out of it.
  suffices h : ∀ first, Derives may (first ++ [.many repetition]) tokens sketches between →
      Derives may (first ++ [.many repetition]) tokens (later ++ sketches) rest from h [] hmany
  clear hmany
  intro first h
  generalize hparts : first ++ [Part.many repetition] = parts at h
  induction h generalizing first with
  | nil => simp at hparts
  | token hkind others ih =>
    rcases List.append_eq_cons_iff.mp hparts with ⟨rfl, h⟩ | ⟨first, rfl, rfl⟩
    · cases h
    · rw [← List.append_assoc]
      exact .token hkind (ih hround hlast first rfl)
  | node hmay hinside others _ ih =>
    rcases List.append_eq_cons_iff.mp hparts with ⟨rfl, h⟩ | ⟨first, rfl, rfl⟩
    · cases h
    · rw [← List.append_assoc]
      exact .node hmay hinside (ih hround hlast first rfl)
  | lastRound hmem others ih =>
    rcases List.append_eq_cons_iff.mp hparts with ⟨rfl, h⟩ | ⟨first, rfl, rfl⟩
    · cases h
      rw [List.append_nil] at others
      exact .nextRound hmem (others.append hlast)
    · exact .lastRound hmem (ih hround hlast (_ ++ first) (List.append_assoc _ _ _))
  | nextRound hmem others ih =>
    rcases List.append_eq_cons_iff.mp hparts with ⟨rfl, h⟩ | ⟨first, rfl, rfl⟩
    · cases h
      exact .nextRound hmem (ih hround hlast _ rfl)
    · exact .nextRound hmem (ih hround hlast (_ ++ _ :: first) (List.append_assoc _ (_ :: _) _))

/-! ## The tokens of a derivation -/

theorem leaves (h : Derives may parts tokens sketches rest) :
    tokens = leavesOf sketches ++ rest := by
  induction h with
  | nil => rfl
  | token _ _ ih => rw [leavesOf_append, List.append_assoc, ← ih]; rfl
  | node _ _ _ ihfirst ihothers =>
    rw [leavesOf_append, leavesOf_wrap, List.append_assoc, ← ihothers, ihfirst]
  | lastRound _ _ ih => exact ih
  | nextRound _ _ ih => exact ih

/-- What comes after does not matter. -/
theorem frame (h : Derives Grammatical parts tokens sketches rest) (left : List Token) :
    Derives Grammatical parts (leavesOf sketches ++ left) sketches left := by
  induction h generalizing left with
  | nil => exact .nil
  | token hkind _ ih =>
    rw [leavesOf_append, List.append_assoc]
    exact .token hkind (ih left)
  | node hmay _ _ ihfirst ihothers =>
    rw [leavesOf_append, leavesOf_wrap, List.append_assoc]
    refine .node ?_ (ihfirst _) (ihothers left)
    exact hmay
  | lastRound hround _ ih => exact .lastRound hround (ih left)
  | nextRound hround _ ih => exact .nextRound hround (ih left)

/-- Each part stands for a token at least. -/
theorem length_le (h : Derives Grammatical parts tokens sketches rest) :
    rest.length + parts.length ≤ tokens.length := by
  induction h with
  | nil => exact Nat.le_refl _
  | token _ _ ih => exact Nat.succ_le_succ ih
  | node hmay _ _ ihfirst ihothers =>
    have hpos := List.length_pos_iff.mpr (Nonterminal.ne_nil_of_mem_alternatives _ _ hmay)
    rw [List.length_cons]
    omega
  | lastRound hround _ ih =>
    have hpos := List.length_pos_iff.mpr (Repetition.ne_nil_of_mem_rounds _ _ hround)
    rw [List.length_append, List.length_map] at ih
    rw [List.length_cons]
    omega
  | nextRound hround _ ih =>
    rw [List.length_append, List.length_cons] at ih
    rw [List.length_cons]
    omega

theorem length_lt (h : Derives Grammatical parts tokens sketches rest) (hne : parts ≠ []) :
    rest.length < tokens.length := by
  have := h.length_le
  have := List.length_pos_iff.mpr hne
  omega

end Derives

/-! ## All parts stand for something -/

/-- Some alternative of each nonterminal has only nonterminals below it. -/
def Nonterminal.height (n : Nonterminal) : Nat :=
  if n ∈ [group, strayPostfix, indexedTarget, assignment, definition] then all.length
  else n.ctorIdx

def Part.isBelow (height : Nat) : Part → Bool
  | .one (.terminal _) => true
  | .one (.nonterminal m) => m.height < height
  | .many _ => false

theorem Nonterminal.exists_alternative_below (n : Nonterminal) :
    ∃ alternative ∈ n.alternatives, ∀ part ∈ alternative, part.isBelow n.height := by
  cases n <;> decide

theorem exists_derives_of_forall {P : Part → Prop}
    (h : ∀ part, P part → ∃ tokens sketches, Derives Grammatical [part] tokens sketches [])
    (hparts : ∀ part ∈ parts, P part) :
    ∃ tokens sketches, Derives Grammatical parts tokens sketches [] := by
  induction parts with
  | nil => exact ⟨[], [], .nil⟩
  | cons part parts ih =>
    obtain ⟨hpart, hparts⟩ := List.forall_mem_cons.mp hparts
    obtain ⟨later, last, hlast⟩ := ih hparts
    obtain ⟨tokens, first, hfirst⟩ := h part hpart
    exact ⟨_, _, (hfirst.frame later).append hlast⟩

theorem exists_derives_leaf (kind : Terminal) :
    ∃ tokens sketches, Derives Grammatical [.leaf kind] tokens sketches [] :=
  ⟨[⟨kind, default⟩], _, .token rfl .nil⟩

theorem exists_derives_node (n : Nonterminal) :
    ∃ tokens sketches, Derives Grammatical [.node n] tokens sketches [] := by
  induction hheight : n.height using Nat.strongRecOn generalizing n with
  | ind height ih =>
    obtain ⟨alternative, hmem, hbelow⟩ := n.exists_alternative_below
    have hpart : ∀ part : Part, part.isBelow n.height →
        ∃ tokens sketches, Derives Grammatical [part] tokens sketches [] := by
      intro part hpart
      match part, hpart with
      | .leaf kind, _ => exact exists_derives_leaf kind
      | .node m, hm => exact ih m.height (hheight ▸ of_decide_eq_true hm) m rfl
    obtain ⟨tokens, sketches, h⟩ := exists_derives_of_forall hpart hbelow
    exact ⟨tokens, _, Derives.node_iff.mpr ⟨alternative, sketches, hmem, h, rfl⟩⟩

theorem exists_derives_one (s : Symbol) :
    ∃ tokens sketches, Derives Grammatical [.one s] tokens sketches [] :=
  match s with
  | .terminal kind => exists_derives_leaf kind
  | .nonterminal n => exists_derives_node n

theorem exists_derives (parts : List Part) :
    ∃ tokens sketches, Derives Grammatical parts tokens sketches [] := by
  refine exists_derives_of_forall (P := fun _ => True) (fun part _ => ?_) fun _ _ => trivial
  cases part with
  | one s => exact exists_derives_one s
  | many repetition =>
    have hrounds : repetition.rounds ≠ [] := by cases repetition <;> decide
    obtain ⟨round, hround⟩ := List.exists_mem_of_ne_nil _ hrounds
    obtain ⟨tokens, sketches, h⟩ : ∃ tokens sketches,
        Derives Grammatical (round.map .one) tokens sketches [] := by
      refine exists_derives_of_forall (P := fun part => ∃ s, part = .one s) ?_ ?_
      · rintro _ ⟨s, rfl⟩
        exact exists_derives_one s
      · intro part hpart
        obtain ⟨s, -, rfl⟩ := List.mem_map.mp hpart
        exact ⟨s, rfl⟩
    exact ⟨tokens, sketches, .lastRound hround (by rwa [List.append_nil])⟩

end Calculator.Grammar
