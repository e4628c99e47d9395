import Calculator.Proofs.Grammar.Brackets

/-!
# One derivation

Where no bracket is left open and no identifier before a parenthesis stands alone, tokens have one
derivation at most. Two derivations are compared part by part: whatever may come next decides which
alternative it is, and where a part ends, since a part that can go on does.
-/

namespace Calculator.Grammar

open Sketch

variable {part : Part} {parts first second : List Part} {n m : Nonterminal}
  {tokens rest between : List Token} {sketches : List Sketch}

/-! ## What comes first and what comes next -/

/-- What a number, a string or a name or brackets start with. -/
def atomStarts : List Terminal :=
  [.lpar, .lsqb, .lbrace, .currencySymbol, .hex, .bin, .oct, .sci, .float, .int, .boolean, .string,
    .identifier, .openLiteral]

/-- The kinds of the tokens that it starts with. -/
def Nonterminal.starts : Nonterminal → List Terminal
  | group => [.lpar]
  | array | openArray => [.lsqb]
  | object | openObject => [.lbrace]
  | currency => [.currencySymbol]
  | call | indexedTarget | assignment | definition => [.identifier]
  | openParen | impliedPrimary | impliedIndexed | impliedPostfixed | impliedOperand =>
    [.lpar, .identifier]
  | atom | primary | indexed | postfixed => atomStarts
  | strayPostfix => [.bang]
  | comparator => [.eq, .ne, .le, .ge, .lt, .gt]
  | decorator => [.atSign]
  | strayDecorator | lineBody => .atSign :: .minus :: .tilde :: .bang :: atomStarts
  | _ => .minus :: .tilde :: .bang :: atomStarts

/-- All kinds. Those that an operand goes on with come first, in the order of their precedence. -/
def precedence : List Terminal :=
  [.lsqb, .bang, .pow, .lpar, .identifier, .star, .slash, .percent, .plus, .minus, .shiftLeft,
    .shiftRight, .amp, .caret, .pipe, .eq, .ne, .le, .ge, .lt, .gt, .and, .or, .question, .equal,
    .comma, .hex, .bin, .oct, .sci, .float, .int, .boolean, .string, .openLiteral, .currencySymbol,
    .tilde, .colon, .rpar, .rsqb, .lbrace, .rbrace, .atSign, .newline, .openLine]

/-- How many of the kinds it goes on with. -/
def Nonterminal.width : Nonterminal → Nat
  | indexed | impliedIndexed => 1
  | postfixed | strayPostfix | prefixed | impliedPostfixed => 2
  | power | impliedOperand => 3
  | impliedProduct => 5
  | product => 8
  | sum => 10
  | shift => 12
  | bitAnd => 13
  | bitXor => 14
  | bitOr => 15
  | comparison => 21
  | conjunction => 22
  | disjunction => 23
  | ternary | entry => 24
  | assignment | definition | expression => 25
  | arguments => 26
  | strayDecorator | lineBody => precedence.length
  | _ => 0

namespace Symbol

def starts : Symbol → List Terminal
  | .terminal kind => [kind]
  | .nonterminal n => n.starts

/-- The kinds of the tokens that it goes on with. -/
def more : Symbol → List Terminal
  | .terminal _ => []
  | .nonterminal n => precedence.take n.width

end Symbol

/-- What the last symbol of a round goes on with. -/
def Repetition.more (repetition : Repetition) : List Terminal :=
  (repetition.rounds.filterMap List.getLast?).flatMap Symbol.more

namespace Part

def starts (part : Part) : List Terminal := part.firsts.flatMap Symbol.starts

/-- A repetition goes on with its last round or with one more. -/
def more : Part → List Terminal
  | .one s => s.more
  | .many repetition => repetition.more ++ (Part.many repetition).starts

/-- The part does not go on with what comes next. -/
def isClear (last : List Terminal) (part : Part) : List Part → Bool
  | [] => part.more ⊆ last
  | next :: _ => part.more.all (· ∉ next.starts)

end Part

/-- The next token decides between the parts, and between them and their end. -/
def tied (last : List Terminal) : List Part → List Part → Bool
  | [], [] => true
  | [], part :: _ => part.starts ⊆ last
  | part :: _, [] => part.starts ⊆ last
  | p :: ps, q :: qs =>
    if p = q then p.isClear last ps && p.isClear last qs && tied last ps qs
    else p.starts.all (· ∉ q.starts)

/-- A bracket that is left open. -/
def Nonterminal.isOpen (n : Nonterminal) : Bool := n ∈ [openArray, openObject, openParen]

/-- The alternatives without brackets that are left open. -/
def Nonterminal.shut (n : Nonterminal) : List (List Part) :=
  if n.isOpen then []
  else n.alternatives.filter fun parts => parts.all fun part =>
    match part with
    | .node m => !m.isOpen
    | _ => true

theorem Nonterminal.starts_alternative (n : Nonterminal) : ∀ alternative ∈ n.alternatives,
    ∀ part ∈ alternative.head?, part.starts ⊆ n.starts := by
  cases n <;> decide

theorem Repetition.tied_rounds (repetition : Repetition) :
    (∀ a ∈ repetition.rounds, ∀ b ∈ repetition.rounds,
      tied repetition.more (a.map .one) (b.map .one)) ∧
      repetition.more.all (· ∉ (Part.many repetition).starts) := by
  cases repetition <;> decide

/-- Alternatives that start in the same way. -/
def Nonterminal.rivals : Nonterminal → List (List Part × List Part)
  | primary => [([.node call], [.node atom])]
  | impliedPrimary => [([.node call], [.leaf .identifier])]
  | assignment =>
    [([.leaf .identifier, .leaf .equal, .node expression],
      [.node indexedTarget, .leaf .equal, .node expression])]
  | expression =>
    [([.node assignment], [.node definition]), ([.node assignment], [.node ternary]),
      ([.node definition], [.node ternary])]
  | lineBody =>
    [([.node expression, .node decorator], [.node strayDecorator]),
      ([.node expression], [.node strayDecorator]),
      ([.node expression, .leaf .openLine], [.node strayDecorator])]
  | _ => []

theorem Nonterminal.tied_alternatives (n : Nonterminal) : ∀ a ∈ n.shut, ∀ b ∈ n.shut,
    tied (Symbol.nonterminal n).more a b ∨ (a, b) ∈ n.rivals ∨ (b, a) ∈ n.rivals := by
  cases n <;> decide

/-! ## Derivations that fit -/

/-- No bracket is left open, and no identifier before a parenthesis stands alone. -/
def Fits : Choice := fun n alternative left =>
  Shut n alternative left ∧ (alternative = [.leaf .identifier] → ∀ t ∈ left.head?, t.kind ≠ .lpar)

theorem isOpen_iff : n.isOpen ↔ ∃ b : Bracket, n.rule? = some b.openRule := by
  constructor
  · intro h
    have hmem : n ∈ [Nonterminal.openArray, .openObject, .openParen] := of_decide_eq_true h
    simp only [List.mem_cons, List.not_mem_nil, or_false] at hmem
    rcases hmem with rfl | rfl | rfl
    · exact ⟨.square, rfl⟩
    · exact ⟨.brace, rfl⟩
    · exact ⟨.paren, rfl⟩
  · rintro ⟨b, h⟩
    revert h
    cases b <;> cases n <;> decide

namespace Derives

theorem grammatical (h : Derives Shut parts tokens sketches rest) :
    Derives Grammatical parts tokens sketches rest := h.mono fun _ _ _ hmay => hmay.1

theorem shut_of_fits (h : Derives Fits parts tokens sketches rest) :
    Derives Shut parts tokens sketches rest := h.mono fun _ _ _ hmay => hmay.1

theorem isOpen_eq_false (h : Derives Shut parts tokens sketches rest) :
    ∀ n, Part.node n ∈ parts → n.isOpen = false := by
  induction h with
  | nil => exact fun n hn => absurd hn List.not_mem_nil
  | token _ _ ih =>
    intro n hn
    rcases List.mem_cons.mp hn with hn | hn
    · cases hn
    · exact ih n hn
  | node hmay _ _ _ ih =>
    intro n hn
    rcases List.mem_cons.mp hn with hn | hn
    · cases hn
      rw [Bool.eq_false_iff, ne_eq, isOpen_iff]
      rintro ⟨b, hb⟩
      exact hmay.2 b hb
    · exact ih n hn
  | lastRound _ _ ih =>
    intro n hn
    rcases List.mem_cons.mp hn with hn | hn
    · cases hn
    · exact ih n (List.mem_append_right _ hn)
  | nextRound _ _ ih =>
    intro n hn
    exact ih n (List.mem_append_right _ (by simpa using hn))

theorem mem_shut {alternative : List Part} {left : List Token} (hmay : Shut n alternative left)
    (h : Derives Shut alternative tokens sketches rest) : alternative ∈ n.shut := by
  have hn : n.isOpen = false := by
    rw [Bool.eq_false_iff, ne_eq, isOpen_iff]
    rintro ⟨b, hb⟩
    exact hmay.2 b hb
  rw [Nonterminal.shut, hn, if_neg Bool.false_ne_true, List.mem_filter]
  refine ⟨hmay.1, List.all_eq_true.mpr fun part hpart => ?_⟩
  split
  · rename_i m
    rw [h.isOpen_eq_false m hpart]
    rfl
  · rfl

theorem starts (h : Derives Grammatical parts tokens sketches rest) :
    ∀ part ∈ parts.head?, ∃ t ∈ tokens.head?, t.kind ∈ part.starts := by
  induction h with
  | nil => exact fun part hpart => nomatch hpart
  | @token kind token _ _ _ _ hkind _ _ =>
    rintro _ ⟨⟩
    exact ⟨token, rfl, by simp [Part.starts, Part.firsts, Symbol.starts, hkind]⟩
  | @node n alternative _ _ _ _ _ _ hmay first _ ih _ =>
    rintro _ ⟨⟩
    obtain ⟨part, others, rfl⟩ :=
      List.exists_cons_of_ne_nil (n.ne_nil_of_mem_alternatives alternative hmay)
    obtain ⟨t, ht, hkind⟩ := ih part rfl
    refine ⟨t, ht, ?_⟩
    have hstarts := n.starts_alternative _ hmay part rfl hkind
    simpa [Part.starts, Part.firsts, Symbol.starts] using hstarts
  | @lastRound repetition round _ _ _ _ hround _ ih
  | @nextRound repetition round _ _ _ _ hround _ ih =>
    rintro _ ⟨⟩
    obtain ⟨s, others, rfl⟩ :=
      List.exists_cons_of_ne_nil (repetition.ne_nil_of_mem_rounds round hround)
    obtain ⟨t, ht, hkind⟩ := ih (.one s) rfl
    refine ⟨t, ht, List.mem_flatMap.mpr ⟨s, ?_, by simpa [Part.starts, Part.firsts] using hkind⟩⟩
    exact List.mem_filterMap.mpr ⟨_, hround, rfl⟩

/-- A repetition is a round, and the end or one more repetition. -/
theorem many_inversion {may : Choice} {repetition : Repetition}
    (h : Derives may [.many repetition] tokens sketches rest) :
    ∃ round ∈ repetition.rounds, ∃ between first later, sketches = later ++ first ∧
      Derives may (round.map .one) tokens first between ∧
      ((later = [] ∧ between = rest) ∨ Derives may [.many repetition] between later rest) := by
  cases h with
  | lastRound hround h =>
    rw [List.append_nil] at h
    exact ⟨_, hround, rest, sketches, [], rfl, h, .inl ⟨rfl, rfl⟩⟩
  | nextRound hround h =>
    obtain ⟨between, first, later, rfl, hfirst, hlater⟩ := h.split
    exact ⟨_, hround, between, first, later, rfl, hfirst, .inr hlater⟩

end Derives

/-! ## Agreement -/

/-- The next token is none of the kinds. -/
def Clear (last : List Terminal) (rest : List Token) : Prop := ∀ t ∈ rest.head?, t.kind ∉ last

/-- From the tokens on, a part that does not go on derives one thing at most. -/
def Settles (part : Part) (tokens : List Token) : Prop :=
  ∀ ⦃a b⦄ ⦃p q : List Token⦄, Derives Fits [part] tokens a p → Clear part.more p →
    Derives Fits [part] tokens b q → Clear part.more q → a = b ∧ p = q

theorem Clear.mono {last more : List Terminal} (h : Clear more rest) (hsub : last ⊆ more) :
    Clear last rest := fun t ht hmem => h t ht (hsub hmem)

theorem Derives.starts_clear {last : List Terminal}
    (h : Derives Fits (part :: parts) tokens sketches rest)
    (hstarts : last.all (· ∉ part.starts)) : Clear last tokens := by
  obtain ⟨t, ht, hkind⟩ := h.shut_of_fits.grammatical.starts part rfl
  intro t' ht' hmem
  obtain rfl : t = t' := Option.some.inj (ht.symm.trans ht')
  simpa [hkind] using List.all_eq_true.mp hstarts _ hmem

theorem clear_of_isClear {last : List Terminal} (hclear : part.isClear last parts)
    (h : Derives Fits parts tokens sketches rest) (hrest : Clear last rest) :
    Clear part.more tokens := by
  cases parts with
  | nil =>
    obtain ⟨-, rfl⟩ := Derives.nil_iff.mp h
    exact hrest.mono (of_decide_eq_true hclear)
  | cons next others =>
    exact h.starts_clear hclear

/-- Tied parts that derive the same tokens are the same parts. -/
theorem tied_agree {last : List Terminal} {a b : List Sketch} {p q : List Token}
    (htied : tied last first second)
    (hfirst : ∀ part ∈ first.head?, Settles part tokens)
    (hlater : ∀ part (later : List Token), later.length < tokens.length → Settles part later)
    (ha : Derives Fits first tokens a p) (hp : Clear last p)
    (hb : Derives Fits second tokens b q) (hq : Clear last q) :
    first = second ∧ a = b ∧ p = q := by
  fun_induction tied last first second generalizing tokens a b with
  | case1 =>
    obtain ⟨rfl, rfl⟩ := Derives.nil_iff.mp ha
    obtain ⟨rfl, rfl⟩ := Derives.nil_iff.mp hb
    exact ⟨rfl, rfl, rfl⟩
  | case2 part others =>
    obtain ⟨rfl, rfl⟩ := Derives.nil_iff.mp ha
    obtain ⟨t, ht, hkind⟩ := hb.shut_of_fits.grammatical.starts part rfl
    exact absurd (of_decide_eq_true htied hkind) (hp t ht)
  | case3 part others =>
    obtain ⟨rfl, rfl⟩ := Derives.nil_iff.mp hb
    obtain ⟨t, ht, hkind⟩ := ha.shut_of_fits.grammatical.starts part rfl
    exact absurd (of_decide_eq_true htied hkind) (hq t ht)
  | case4 others part more ih =>
    simp only [Bool.and_eq_true] at htied
    obtain ⟨⟨hclear, hother⟩, htied⟩ := htied
    obtain ⟨between, inside, later, rfl, hpart, hothers⟩ := ha.cons_split
    obtain ⟨_, _, _, rfl, hsame, hmore⟩ := hb.cons_split
    obtain ⟨rfl, rfl⟩ := hfirst part rfl hpart (clear_of_isClear hclear hothers hp) hsame
      (clear_of_isClear hother hmore hq)
    have hshorter := hpart.shut_of_fits.grammatical.length_lt (List.cons_ne_nil _ _)
    obtain ⟨rfl, rfl, rfl⟩ := ih htied (fun part _ => hlater part between hshorter)
      (fun part later hlength => hlater part later (Nat.lt_trans hlength hshorter)) hothers hmore
    exact ⟨rfl, rfl, rfl⟩
  | case5 part others part' more hne =>
    obtain ⟨t, ht, hkind⟩ := ha.shut_of_fits.grammatical.starts part rfl
    obtain ⟨t', ht', hother⟩ := hb.shut_of_fits.grammatical.starts part' rfl
    obtain rfl : t = t' := Option.some.inj (ht.symm.trans ht')
    exact absurd hother (by simpa using List.all_eq_true.mp htied _ hkind)

theorem settles_leaf (kind : Terminal) : Settles (.leaf kind) tokens := by
  intro a b p q ha _ hb _
  obtain ⟨token, -, rfl, rfl⟩ := Derives.leaf_iff.mp ha
  obtain ⟨token', -, hcons, rfl⟩ := Derives.leaf_iff.mp hb
  obtain ⟨rfl, rfl⟩ := List.cons.inj hcons
  exact ⟨rfl, rfl⟩

theorem settles_many {repetition : Repetition}
    (hfirst : ∀ s ∈ (Part.many repetition).firsts, Settles (.one s) tokens)
    (hlater : ∀ part (later : List Token), later.length < tokens.length → Settles part later) :
    Settles (.many repetition) tokens := by
  obtain ⟨htied, hmore⟩ := repetition.tied_rounds
  -- A round is followed by the end of the whole or by one more round.
  have hclear : ∀ {between later rest}, Clear (Part.many repetition).more rest →
      ((later = [] ∧ between = rest) ∨ Derives Fits [.many repetition] between later rest) →
      Clear repetition.more between := by
    rintro between later rest hrest (⟨-, rfl⟩ | h)
    · exact hrest.mono (List.subset_append_left _ _)
    · exact h.starts_clear hmore
  intro a b p q ha hp hb hq
  obtain ⟨round, hround, between, inside, later, rfl, hinside, hothers⟩ := ha.many_inversion
  obtain ⟨round', hround', between', _, later', rfl, hinside', hothers'⟩ := hb.many_inversion
  have hheads : ∀ part ∈ (round.map Part.one).head?, Settles part tokens := by
    intro part hpart
    rw [List.head?_map] at hpart
    obtain ⟨s, hs, rfl⟩ := Option.map_eq_some_iff.mp hpart
    exact hfirst s (List.mem_filterMap.mpr ⟨round, hround, hs⟩)
  obtain ⟨-, rfl, rfl⟩ := tied_agree (htied round hround round' hround') hheads hlater hinside
    (hclear hp hothers) hinside' (hclear hq hothers')
  have hshorter := hinside.shut_of_fits.grammatical.length_lt
    (by simpa using repetition.ne_nil_of_mem_rounds round hround)
  have hnext : ∀ {later rest}, Clear (Part.many repetition).more between →
      ¬ Derives Fits [.many repetition] between later rest := by
    intro later rest hend h
    obtain ⟨t, ht, hkind⟩ := h.shut_of_fits.grammatical.starts _ rfl
    exact hend t ht (List.mem_append_right _ hkind)
  rcases hothers with ⟨rfl, rfl⟩ | hothers <;> rcases hothers' with ⟨rfl, rfl⟩ | hothers'
  · exact ⟨rfl, rfl⟩
  · exact absurd hothers' (hnext hp)
  · exact absurd hothers (hnext hq)
  · obtain ⟨rfl, rfl⟩ := hlater _ between hshorter hothers hp hothers' hq
    exact ⟨rfl, rfl⟩

/-! ## Alternatives that start in the same way -/

section

variable {alternative other : List Part} {a b : List Sketch} {p q : List Token} {id next : Token}

theorem shut_of_mem (hmem : alternative ∈ n.shut) : Shut n alternative rest := by
  unfold Nonterminal.shut at hmem
  split at hmem
  · cases hmem
  · exact ⟨(List.mem_filter.mp hmem).1, fun b hb => absurd (isOpen_iff.mpr ⟨b, hb⟩) ‹_›⟩

theorem Derives.wrap (h : Derives Fits alternative tokens sketches rest)
    (hmem : alternative ∈ n.shut) (hname : alternative = [.leaf .identifier] → Clear [.lpar] rest) :
    Derives Fits [.node n] tokens (n.wrap sketches) rest := by
  refine Derives.node_iff.mpr
    ⟨alternative, sketches, ⟨shut_of_mem hmem, fun heq t ht => ?_⟩, h, rfl⟩
  simpa using hname heq t ht

/-- From nonterminal to nonterminal, each of them an alternative of the next one. -/
theorem Derives.climb (ns : List Nonterminal)
    (hchain : (n :: ns).IsChain fun lower upper => [.node lower] ∈ upper.shut)
    (h : Derives Fits [.node n] tokens sketches rest) :
    ∃ others, Derives Fits [.node (ns.getLastD n)] tokens others rest := by
  induction ns generalizing n sketches with
  | nil => exact ⟨sketches, h⟩
  | cons m ns ih =>
    obtain ⟨hstep, hchain⟩ := List.isChain_cons_cons.mp hchain
    rw [List.getLastD_cons]
    exact ih hchain (h.wrap hstep (by simp))

/-- An operand alone is a ternary. -/
theorem Derives.ternary_of_indexed (h : Derives Fits [.node .indexed] tokens sketches rest) :
    ∃ others, Derives Fits [.node .ternary] tokens others rest :=
  h.climb [.postfixed, .prefixed, .power, .impliedProduct, .product, .sum, .shift, .bitAnd, .bitXor,
    .bitOr, .comparison, .conjunction, .disjunction, .ternary] (by decide)

theorem Derives.primary_of_name (hid : id.kind = .identifier) (hrest : Clear [.lpar] rest) :
    Derives Fits [.node .primary] (id :: rest) [.leaf id] rest := by
  have hatom : Derives Fits [.node .atom] (id :: rest) [.leaf id] rest :=
    wrap (.token hid .nil) (by decide) fun _ => hrest
  exact hatom.wrap (by decide) (by simp)

theorem Derives.ternary_of_primary (h : Derives Fits [.node .primary] tokens sketches rest) :
    ∃ others, Derives Fits [.node .ternary] tokens others rest := by
  have hindexed : Derives Fits [.node .indexed] tokens _ rest := h.wrap (by decide) (by simp)
  exact hindexed.ternary_of_indexed

theorem Derives.ternary_of_name (hid : id.kind = .identifier) (hrest : Clear [.lpar] rest) :
    ∃ others, Derives Fits [.node .ternary] (id :: rest) others rest :=
  (primary_of_name hid hrest).ternary_of_primary

theorem Derives.expression_of_name (hid : id.kind = .identifier) (hrest : Clear [.lpar] rest) :
    ∃ others, Derives Fits [.node .expression] (id :: rest) others rest := by
  obtain ⟨others, h⟩ := ternary_of_name hid hrest
  exact ⟨_, h.wrap (by decide) (by simp)⟩

/-! ### A name and what comes next -/

/-- An atom that starts with a name is this name. -/
theorem Derives.atom_name (h : Derives Fits [.node .atom] (id :: rest) a p)
    (hid : id.kind = .identifier) : rest = p ∧ Clear [.lpar] rest := by
  obtain ⟨alternative, inside, hmay, h, -⟩ := Derives.node_iff.mp h
  have hmem := h.shut_of_fits.mem_shut hmay.1
  have hname : ∀ alternative ∈ Nonterminal.atom.shut,
      (∀ part ∈ alternative.head?, .identifier ∈ part.starts) →
        alternative = [.leaf .identifier] := by
    decide
  have hstarts : ∀ part ∈ alternative.head?, .identifier ∈ part.starts := by
    intro part hpart
    obtain ⟨t, ht, hkind⟩ := h.shut_of_fits.grammatical.starts part hpart
    cases ht
    rwa [hid] at hkind
  obtain rfl := hname alternative hmem hstarts
  obtain ⟨_, -, hcons, -⟩ := Derives.leaf_iff.mp h
  obtain ⟨-, rfl⟩ := List.cons.inj hcons
  exact ⟨rfl, fun t ht => by simpa using hmay.2 rfl t ht⟩

theorem Derives.head_inversion (h : Derives Fits [.node n] tokens a p)
    (hparts : ∀ alternative ∈ n.alternatives,
      alternative = .leaf .identifier :: .leaf .lpar :: alternative.drop 2) :
    ∃ id next left, tokens = id :: next :: left ∧ id.kind = .identifier ∧ next.kind = .lpar := by
  obtain ⟨alternative, inside, hmay, h, -⟩ := Derives.node_iff.mp h
  rw [hparts alternative hmay.1.1] at h
  obtain ⟨id, _, _, hid, rfl, -, h⟩ := leaf_cons_iff.mp h
  obtain ⟨next, left, _, hnext, rfl, -, -⟩ := leaf_cons_iff.mp h
  exact ⟨id, next, left, rfl, hid, hnext⟩

/-- The name and the index of a target are an operand. -/
theorem Derives.ternary_of_target (h : Derives Fits [.node .indexedTarget] tokens a p) :
    (∃ id next left, tokens = id :: next :: left ∧ id.kind = .identifier ∧ next.kind = .lsqb) ∧
      ∃ others, Derives Fits [.node .ternary] tokens others p := by
  obtain ⟨alternative, inside, hmay, h, -⟩ := Derives.node_iff.mp h
  obtain rfl := List.mem_singleton.mp hmay.1.1
  obtain ⟨id, _, index, hid, rfl, -, hindex⟩ := leaf_cons_iff.mp h
  obtain ⟨next, left, _, hnext, rfl, -, -⟩ := leaf_cons_iff.mp hindex
  refine ⟨⟨id, next, left, rfl, hid, hnext⟩, ?_⟩
  have hclear : Clear [.lpar] (next :: left) := by
    rintro t ⟨⟩
    simp [hnext]
  have hround : [.terminal .lsqb, .nonterminal .expression, .terminal .rsqb] ∈
      Repetition.indexes.rounds := List.mem_singleton_self _
  have hmany : Derives Fits [.many .indexes] (next :: left) index p :=
    .lastRound hround (by rwa [List.append_nil])
  have hindexed : Derives Fits [.node .indexed] (id :: next :: left) _ p :=
    ((primary_of_name hid hclear).append hmany).wrap (by decide) (by simp)
  exact hindexed.ternary_of_indexed

/-- What is assigned to could be read, with the equals sign left. -/
theorem Derives.ternary_of_assignment (h : Derives Fits [.node .assignment] tokens a p) :
    (∃ id next left, tokens = id :: next :: left ∧ id.kind = .identifier ∧ next.kind ≠ .lpar) ∧
      ∃ others equal left, equal.kind = .equal ∧
        Derives Fits [.node .ternary] tokens others (equal :: left) := by
  obtain ⟨alternative, inside, hmay, h, -⟩ := Derives.node_iff.mp h
  have hmem := hmay.1.1
  simp only [Nonterminal.alternatives, List.mem_cons, List.not_mem_nil, or_false] at hmem
  rcases hmem with rfl | rfl
  · obtain ⟨id, _, _, hid, rfl, -, h⟩ := leaf_cons_iff.mp h
    obtain ⟨equal, left, _, hequal, rfl, -, -⟩ := leaf_cons_iff.mp h
    refine ⟨⟨id, equal, left, rfl, hid, by simp [hequal]⟩, ?_⟩
    have hclear : Clear [.lpar] (equal :: left) := by
      rintro t ⟨⟩
      simp [hequal]
    obtain ⟨others, h⟩ := ternary_of_name hid hclear
    exact ⟨others, equal, left, hequal, h⟩
  · obtain ⟨between, target, later, -, htarget, h⟩ := h.cons_split
    obtain ⟨equal, left, _, hequal, rfl, -, -⟩ := leaf_cons_iff.mp h
    obtain ⟨⟨id, next, more, rfl, hid, hnext⟩, others, h⟩ := htarget.ternary_of_target
    exact ⟨⟨id, next, more, rfl, hid, by simp [hnext]⟩, others, equal, left, hequal, h⟩

/-- Parameters are arguments. -/
theorem Derives.arguments_of_parameters (h : Derives Fits [.many .moreParameters] tokens a p)
    (hrest : Clear [.lpar] p) : ∃ others, Derives Fits [.many .moreArguments] tokens others p := by
  induction hlength : tokens.length using Nat.strongRecOn generalizing tokens a with
  | ind length ih =>
    obtain ⟨round, hround, between, first, later, -, hfirst, hothers⟩ := h.many_inversion
    obtain rfl := List.mem_singleton.mp hround
    obtain ⟨comma, _, _, hcomma, rfl, -, hname⟩ := leaf_cons_iff.mp hfirst
    obtain ⟨name, hkind, rfl, -⟩ := leaf_iff.mp hname
    have hargument : Clear [.lpar] between → ∃ others, Derives Fits
        [.leaf .comma, .node .expression] (comma :: name :: between) others between := by
      intro hclear
      obtain ⟨others, h⟩ := expression_of_name hkind hclear
      exact ⟨_, .token hcomma h⟩
    have hmem : [.terminal .comma, .nonterminal .expression] ∈ Repetition.moreArguments.rounds :=
      List.mem_singleton_self _
    rcases hothers with ⟨-, rfl⟩ | hothers
    · obtain ⟨others, h⟩ := hargument hrest
      exact ⟨others, .lastRound hmem h⟩
    · obtain ⟨others, h⟩ := hargument (hothers.starts_clear (by decide))
      have hshorter : between.length < length := by
        rw [← hlength, List.length_cons, List.length_cons]
        omega
      obtain ⟨more, hmore⟩ := ih between.length hshorter hothers rfl
      exact ⟨_, .nextRound hmem (h.append hmore)⟩

theorem Derives.ternary_of_arguments {lpar : Token} {between : List Token}
    (hid : id.kind = .identifier) (hlpar : lpar.kind = .lpar)
    (harguments : Derives Fits [.node .arguments] tokens a (next :: between))
    (hnext : next.kind = .rpar) :
    ∃ others, Derives Fits [.node .ternary] (id :: lpar :: tokens) others between := by
  have hlast : Derives Fits [.leaf .rpar] (next :: between) _ between := .token hnext .nil
  have hcall : Derives Fits [.node .call] (id :: lpar :: tokens) _ between :=
    wrap (.token hid (.token hlpar (harguments.append hlast))) (by decide) (by simp)
  have hprimary : Derives Fits [.node .primary] (id :: lpar :: tokens) _ between :=
    hcall.wrap (by decide) (by simp)
  exact hprimary.ternary_of_primary

/-- The head of a definition could be a call, with the equals sign left. -/
theorem Derives.ternary_of_definition (h : Derives Fits [.node .definition] tokens a p) :
    ∃ others equal left, equal.kind = .equal ∧
      Derives Fits [.node .ternary] tokens others (equal :: left) := by
  obtain ⟨alternative, inside, hmay, h, -⟩ := Derives.node_iff.mp h
  have hmem := hmay.1.1
  simp only [Nonterminal.alternatives, List.mem_cons, List.not_mem_nil, or_false] at hmem
  have hends : ∀ {t : Token} {left : List Token}, t.kind = .rpar → Clear [.lpar] (t :: left) := by
    rintro t left ht t' ⟨⟩
    simp [ht]
  rcases hmem with rfl | rfl | rfl
  all_goals
    obtain ⟨id, _, _, hid, rfl, -, h⟩ := leaf_cons_iff.mp h
    obtain ⟨lpar, _, _, hlpar, rfl, -, h⟩ := leaf_cons_iff.mp h
  · obtain ⟨name, _, _, hname, rfl, -, h⟩ := leaf_cons_iff.mp h
    obtain ⟨between, _, _, -, hparameters, h⟩ := h.cons_split
    obtain ⟨rpar, _, _, hrpar, rfl, -, h⟩ := leaf_cons_iff.mp h
    obtain ⟨equal, left, _, hequal, rfl, -, -⟩ := leaf_cons_iff.mp h
    obtain ⟨_, hmore⟩ := hparameters.arguments_of_parameters (hends hrpar)
    obtain ⟨_, hfirst⟩ := expression_of_name hname (hparameters.starts_clear (by decide))
    have harguments : Derives Fits [.node .arguments] _ _ (rpar :: equal :: left) :=
      (hfirst.append hmore).wrap (by decide) (by simp)
    obtain ⟨others, h⟩ := ternary_of_arguments hid hlpar harguments hrpar
    exact ⟨others, equal, left, hequal, h⟩
  · obtain ⟨name, _, _, hname, rfl, -, h⟩ := leaf_cons_iff.mp h
    obtain ⟨rpar, _, _, hrpar, rfl, -, h⟩ := leaf_cons_iff.mp h
    obtain ⟨equal, left, _, hequal, rfl, -, -⟩ := leaf_cons_iff.mp h
    obtain ⟨_, hfirst⟩ := expression_of_name hname (hends hrpar)
    have harguments : Derives Fits [.node .arguments] _ _ (rpar :: equal :: left) :=
      hfirst.wrap (by decide) (by simp)
    obtain ⟨others, h⟩ := ternary_of_arguments hid hlpar harguments hrpar
    exact ⟨others, equal, left, hequal, h⟩
  · obtain ⟨rpar, _, _, hrpar, rfl, -, h⟩ := leaf_cons_iff.mp h
    obtain ⟨equal, left, _, hequal, rfl, -, -⟩ := leaf_cons_iff.mp h
    have hcall : Derives Fits [.node .call] (id :: lpar :: rpar :: equal :: left) _ _ :=
      wrap (.token hid (.token hlpar (.token hrpar .nil))) (by decide) (by simp)
    have hprimary : Derives Fits [.node .primary] (id :: lpar :: rpar :: equal :: left) _ _ :=
      hcall.wrap (by decide) (by simp)
    obtain ⟨others, h⟩ := hprimary.ternary_of_primary
    exact ⟨others, equal, left, hequal, h⟩

/-! ### Rivals -/

/-- The same tokens are a ternary up to an equals sign, so no ternary can stop in a better way. -/
theorem not_ternary {left : List Token} {equal : Token} (hequal : equal.kind = .equal)
    (h : Derives Fits [.node .ternary] tokens a (equal :: left))
    (hsettles : Settles (.node .ternary) tokens)
    (hb : Derives Fits [.node .ternary] tokens b q) :
    ¬ Clear (Symbol.nonterminal .expression).more q := by
  intro hq
  have hclear : Clear (Part.node .ternary).more (equal :: left) := by
    rintro t ⟨⟩
    rw [hequal]
    decide
  have hsub : (Part.node .ternary).more ⊆ (Symbol.nonterminal .expression).more := by decide
  obtain ⟨-, rfl⟩ := hsettles h hclear hb (hq.mono hsub)
  exact hq equal rfl (by rw [hequal]; decide)

/-- A decorator that strays makes a line of its own. -/
theorem tied_strayDecorator : ∀ pair ∈ Nonterminal.lineBody.rivals,
    pair.1.head? = some (.node .expression) ∧ pair.2 = [.node .strayDecorator] ∧
      ∀ parts ∈ Nonterminal.strayDecorator.shut,
        tied (Symbol.nonterminal .lineBody).more pair.1 parts ∧ pair.1 ≠ parts := by
  decide

/-- Of two rivals, only one derives anything. -/
theorem not_rivals (hrivals : (alternative, other) ∈ n.rivals)
    (hlower : ∀ m : Nonterminal, m.ctorIdx < n.ctorIdx → Settles (.node m) tokens)
    (hlater : ∀ part (later : List Token), later.length < tokens.length → Settles part later)
    (ha : Derives Fits alternative tokens a p) (hp : Clear (Symbol.nonterminal n).more p)
    (hother : Fits n other q)
    (hb : Derives Fits other tokens b q) (hq : Clear (Symbol.nonterminal n).more q) : False := by
  cases n
  case primary =>
    obtain ⟨rfl, rfl⟩ := Prod.mk.inj (List.mem_singleton.mp hrivals)
    obtain ⟨id, next, left, rfl, hid, hnext⟩ := ha.head_inversion (by decide)
    obtain ⟨rfl, hclear⟩ := hb.atom_name hid
    exact hclear next rfl (by simp [hnext])
  case impliedPrimary =>
    obtain ⟨rfl, rfl⟩ := Prod.mk.inj (List.mem_singleton.mp hrivals)
    obtain ⟨id, next, left, rfl, hid, hnext⟩ := ha.head_inversion (by decide)
    obtain ⟨_, -, hcons, -⟩ := Derives.leaf_iff.mp hb
    obtain ⟨-, rfl⟩ := List.cons.inj hcons
    exact hother.2 rfl next rfl hnext
  case assignment =>
    obtain ⟨rfl, rfl⟩ := Prod.mk.inj (List.mem_singleton.mp hrivals)
    obtain ⟨id, _, _, -, rfl, -, h⟩ := Derives.leaf_cons_iff.mp ha
    obtain ⟨equal, left, _, hequal, rfl, -, -⟩ := Derives.leaf_cons_iff.mp h
    obtain ⟨_, _, _, -, htarget, -⟩ := hb.cons_split
    obtain ⟨⟨_, next, _, hcons, -, hnext⟩, -⟩ := htarget.ternary_of_target
    obtain ⟨-, rfl, -⟩ := by simpa using hcons
    simp [hequal] at hnext
  case expression =>
    simp only [Nonterminal.rivals, List.mem_cons, Prod.mk.injEq, List.not_mem_nil, or_false]
      at hrivals
    rcases hrivals with ⟨rfl, rfl⟩ | ⟨rfl, rfl⟩ | ⟨rfl, rfl⟩
    · obtain ⟨⟨_, next, _, rfl, -, hnext⟩, -⟩ := ha.ternary_of_assignment
      obtain ⟨_, _, _, hcons, -, hlpar⟩ := hb.head_inversion (by decide)
      obtain ⟨-, rfl, -⟩ := by simpa using hcons
      exact hnext hlpar
    · obtain ⟨-, _, _, _, hequal, h⟩ := ha.ternary_of_assignment
      exact not_ternary hequal h (hlower .ternary (by decide)) hb hq
    · obtain ⟨_, _, _, hequal, h⟩ := ha.ternary_of_definition
      exact not_ternary hequal h (hlower .ternary (by decide)) hb hq
  case lineBody =>
    obtain ⟨hhead, rfl, hstray⟩ := tied_strayDecorator _ hrivals
    obtain ⟨parts, inside, hmay, hb, -⟩ := Derives.node_iff.mp hb
    obtain ⟨htied, hne⟩ := hstray parts (hb.shut_of_fits.mem_shut hmay.1)
    refine hne (tied_agree htied (fun part hpart => ?_) hlater ha hp hb hq).1
    obtain rfl := Option.some.inj (hhead.symm.trans hpart)
    exact hlower .expression (by decide)
  all_goals cases hrivals

end

/-! ## All parts -/

theorem settles_node (hlater : ∀ part (later : List Token), later.length < tokens.length →
    Settles part later) (n : Nonterminal) : Settles (.node n) tokens := by
  induction hindex : n.ctorIdx using Nat.strongRecOn generalizing n with
  | ind index ih =>
    have hlower : ∀ m : Nonterminal, m.ctorIdx < n.ctorIdx → Settles (.node m) tokens :=
      fun m hm => ih m.ctorIdx (hindex ▸ hm) m rfl
    have hsymbol : ∀ s : Symbol, s.isBefore n → Settles (.one s) tokens := by
      intro s hs
      cases s with
      | terminal kind => exact settles_leaf kind
      | nonterminal m => exact hlower m (of_decide_eq_true hs)
    have hheads : ∀ alternative ∈ n.alternatives, ∀ part ∈ alternative.head?,
        Settles part tokens := by
      intro alternative hmem part hpart
      have hfirsts := isBefore_of_mem_firsts n alternative hmem part hpart
      cases part with
      | one s => exact hsymbol s (hfirsts s (List.mem_singleton_self s))
      | many repetition => exact settles_many (fun s hs => hsymbol s (hfirsts s hs)) hlater
    intro a b p q ha hp hb hq
    rw [Derives.node_iff] at ha hb
    obtain ⟨first, inside, hfirst, ha, rfl⟩ := ha
    obtain ⟨second, inside', hsecond, hb, rfl⟩ := hb
    have hmem := ha.shut_of_fits.mem_shut hfirst.1
    have hmem' := hb.shut_of_fits.mem_shut hsecond.1
    rcases n.tied_alternatives first hmem second hmem' with htied | hrivals | hrivals
    · obtain ⟨-, rfl, rfl⟩ := tied_agree htied (hheads first hfirst.1.1) hlater ha hp hb hq
      exact ⟨rfl, rfl⟩
    · exact absurd (not_rivals hrivals hlower hlater ha hp hsecond hb hq) not_false
    · exact absurd (not_rivals hrivals hlower hlater hb hq hfirst ha hp) not_false

theorem settles (part : Part) (tokens : List Token) : Settles part tokens := by
  induction hlength : tokens.length using Nat.strongRecOn generalizing part tokens with
  | ind length ih =>
    have hlater : ∀ part (later : List Token), later.length < tokens.length → Settles part later :=
      fun part later hshorter => ih later.length (hlength ▸ hshorter) part later rfl
    have hone : ∀ s : Symbol, Settles (.one s) tokens
      | .terminal kind => settles_leaf kind
      | .nonterminal n => settles_node hlater n
    cases part with
    | one s => exact hone s
    | many repetition => exact settles_many (fun s _ => hone s) hlater

/-- Derivations that fit and leave nothing are the same. -/
theorem Derives.unique {a b : List Sketch} (ha : Derives Fits [part] tokens a [])
    (hb : Derives Fits [part] tokens b []) : a = b := by
  have hnone : Clear part.more [] := fun t ht => nomatch ht
  exact (settles part tokens ha hnone hb hnone).1

end Calculator.Grammar
