import Calculator.Proofs.Grammar.Agreement

/-!
# A name before a parenthesis

A name that stands alone before a parenthesis can be called instead, with what is in the parentheses
as its argument. The implied operand that started with the parenthesis then belongs to the operand
before it. So a derivation has this call already, or another one has more calls.
-/

namespace Calculator.Grammar

open Sketch

variable {part : Part} {parts : List Part} {n base tail : Nonterminal} {repetition : Repetition}
  {tokens rest between : List Token} {sketches first later : List Sketch}

/-! ## Derivations with more calls -/

/-- Another derivation of the same tokens has more calls. -/
def Improvable (parts : List Part) (tokens : List Token) (sketches : List Sketch)
    (rest : List Token) : Prop :=
  ∃ others, Derives Shut parts tokens others rest ∧
    nodesOf .call sketches < nodesOf .call others

/-- A derivation that goes on over what the nonterminal derives has one call more at least. -/
def Absorbs (tail : Nonterminal) (parts : List Part) (tokens : List Token)
    (sketches : List Sketch) (rest : List Token) : Prop :=
  ∀ more left, Derives Shut [.node tail] rest more left →
    ∃ others, Derives Shut parts tokens others left ∧
      nodesOf .call sketches + nodesOf .call more < nodesOf .call others

/-- A derivation that has all its calls, or one that does not. -/
def Called (parts : List Part) (tokens : List Token) (sketches : List Sketch)
    (rest : List Token) : Prop :=
  Improvable parts tokens sketches rest ∨ Derives Fits parts tokens sketches rest

theorem Improvable.before (h : Improvable [part] tokens first between)
    (hlater : Derives Shut parts between later rest) :
    Improvable (part :: parts) tokens (later ++ first) rest := by
  obtain ⟨others, hothers, hmore⟩ := h
  refine ⟨later ++ others, hothers.append hlater, ?_⟩
  rw [nodesOf_append, nodesOf_append]
  omega

theorem Improvable.after (h : Improvable parts between later rest)
    (hfirst : Derives Shut [part] tokens first between) :
    Improvable (part :: parts) tokens (later ++ first) rest := by
  obtain ⟨others, hothers, hmore⟩ := h
  refine ⟨others ++ first, hfirst.append hothers, ?_⟩
  rw [nodesOf_append, nodesOf_append]
  omega

theorem Absorbs.after (h : Absorbs tail parts between later rest)
    (hfirst : Derives Shut [part] tokens first between) :
    Absorbs tail (part :: parts) tokens (later ++ first) rest := by
  intro more left hmore
  obtain ⟨others, hothers, hcalls⟩ := h more left hmore
  refine ⟨others ++ first, hfirst.append hothers, ?_⟩
  rw [nodesOf_append, nodesOf_append]
  omega

theorem Called.cons (hfirst : Called [part] tokens first between)
    (hlater : Called parts between later rest)
    (hpart : Derives Shut [part] tokens first between)
    (hparts : Derives Shut parts between later rest) :
    Called (part :: parts) tokens (later ++ first) rest := by
  rcases hfirst with h | hfirst
  · exact .inl (h.before hparts)
  · rcases hlater with h | hlater
    · exact .inl (h.after hpart)
    · exact .inr (hfirst.append hlater)

section

variable {alternative : List Part}

theorem Derives.wrap_shut (h : Derives Shut alternative tokens sketches rest)
    (hmem : alternative ∈ n.shut) : Derives Shut [.node n] tokens (n.wrap sketches) rest :=
  Derives.node_iff.mpr ⟨alternative, sketches, shut_of_mem hmem, h, rfl⟩

theorem Improvable.wrap (h : Improvable alternative tokens sketches rest)
    (hmem : alternative ∈ n.shut) : Improvable [.node n] tokens (n.wrap sketches) rest := by
  obtain ⟨others, hothers, hmore⟩ := h
  refine ⟨n.wrap others, hothers.wrap_shut hmem, ?_⟩
  rw [nodesOf_wrap, nodesOf_wrap]
  omega

theorem Absorbs.wrap (h : Absorbs tail alternative tokens sketches rest)
    (hmem : alternative ∈ n.shut) : Absorbs tail [.node n] tokens (n.wrap sketches) rest := by
  intro more left hmore
  obtain ⟨others, hothers, hcalls⟩ := h more left hmore
  refine ⟨n.wrap others, hothers.wrap_shut hmem, ?_⟩
  rw [nodesOf_wrap, nodesOf_wrap]
  omega

theorem Called.wrap (h : Called alternative tokens sketches rest) (hmem : alternative ∈ n.shut)
    (hname : alternative = [.leaf .identifier] → Clear [.lpar] rest) :
    Called [.node n] tokens (n.wrap sketches) rest := by
  rcases h with h | h
  · exact .inl (h.wrap hmem)
  · exact .inr (h.wrap hmem hname)

end

theorem Derives.many_cons {may : Choice} {round : List Symbol}
    (hround : round ∈ repetition.rounds)
    (hfirst : Derives may (round.map .one) tokens first between)
    (hothers : (later = [] ∧ between = rest) ∨ Derives may [.many repetition] between later rest) :
    Derives may [.many repetition] tokens (later ++ first) rest := by
  rcases hothers with ⟨rfl, rfl⟩ | hothers
  · exact .lastRound hround (by rwa [List.append_nil])
  · exact .nextRound hround (hfirst.append hothers)

theorem Called.many_cons {round : List Symbol} (hround : round ∈ repetition.rounds)
    (hcalled : Called (round.map .one) tokens first between)
    (hfirst : Derives Shut (round.map .one) tokens first between)
    (hlater : (later = [] ∧ between = rest) ∨ Called [.many repetition] between later rest)
    (hothers : (later = [] ∧ between = rest) ∨
      Derives Shut [.many repetition] between later rest) :
    Called [.many repetition] tokens (later ++ first) rest := by
  -- The first round has another derivation, or the others have one, or all of them are as they are.
  rcases hcalled with ⟨more, hmore, hcalls⟩ | hfits
  · refine .inl ⟨later ++ more, .many_cons hround hmore hothers, ?_⟩
    rw [nodesOf_append, nodesOf_append]
    omega
  · rcases hlater with hend | ⟨more, hmore, hcalls⟩ | hfitsLater
    · exact .inr (.many_cons hround hfits (.inl hend))
    · refine .inl ⟨more ++ first, .many_cons hround hfirst (.inr hmore), ?_⟩
      rw [nodesOf_append, nodesOf_append]
      omega
    · exact .inr (.many_cons hround hfits (.inr hfitsLater))

/-! ## Parts that no parenthesis follows -/

/-- No alternative ends with an operand. -/
def Symbol.isSealed : Symbol → Bool
  | .terminal _ => true
  | .nonterminal n => n ∈ [.group, .array, .object, .currency, .call, .comparator, .decorator]

def Part.isSealed : Part → Bool
  | .one s => s.isSealed
  | .many repetition => (repetition.rounds.filterMap List.getLast?).all (·.isSealed)

/-- The implied operands that a part goes on with if it ends with a name. -/
def Part.tail? : Part → Option Nonterminal
  | .node .primary | .node .impliedPrimary => some .impliedPrimary
  | .node .indexed | .node .impliedIndexed => some .impliedIndexed
  | .node .postfixed | .node .strayPostfix | .node .prefixed | .node .impliedPostfixed =>
    some .impliedPostfixed
  | .node .power | .node .impliedOperand | .many .powers => some .impliedOperand
  | _ => none

/-- What is known of a part: where a parenthesis comes next, it may go on over it. -/
structure Judged (part : Part) (tokens : List Token) : Prop where
  firm : ∀ {sketches rest}, (part.isSealed ∨ Clear [.lpar] rest) →
    Derives Shut [part] tokens sketches rest → Called [part] tokens sketches rest
  verdict : ∀ {sketches rest tail}, part.tail? = some tail → ¬ Clear [.lpar] rest →
    Derives Shut [part] tokens sketches rest →
      Called [part] tokens sketches rest ∨ Absorbs tail [part] tokens sketches rest

/-- Only the last part may be followed by a parenthesis. -/
def isGuarded (clear : Bool) : List Part → Bool
  | [] => true
  | [part] => clear || part.isSealed
  | part :: next :: others =>
    (part.isSealed || .lpar ∉ next.starts) && isGuarded clear (next :: others)

theorem guarded_alternatives (n : Nonterminal) (hn : n ≠ .impliedProduct) : ∀ parts ∈ n.shut,
    isGuarded (!(Part.node n).isSealed) parts := by
  cases n
  case impliedProduct => exact absurd rfl hn
  all_goals decide

theorem guarded_rounds (repetition : Repetition) (hne : repetition ≠ .impliedOperands) :
    (∀ round ∈ repetition.rounds,
      isGuarded (!(Part.many repetition).isSealed) (round.map .one)) ∧
      [.lpar].all (· ∉ (Part.many repetition).starts) := by
  cases repetition
  case impliedOperands => exact absurd rfl hne
  all_goals decide

theorem Derives.clear_of_starts {last : List Terminal}
    (h : Derives Shut (part :: parts) tokens sketches rest)
    (hstarts : last.all (· ∉ part.starts)) : Clear last tokens := by
  obtain ⟨t, ht, hkind⟩ := h.grammatical.starts part rfl
  intro t' ht' hmem
  obtain rfl : t = t' := Option.some.inj (ht.symm.trans ht')
  simpa [hkind] using List.all_eq_true.mp hstarts _ hmem

/-- Of several guarded parts the first one has all its calls, and the others are guarded. -/
theorem called_first {clear : Bool} {next : Part} {others : List Part}
    (hguarded : isGuarded clear (part :: next :: others)) (hfirst : Judged part tokens)
    (h : Derives Shut (part :: next :: others) tokens sketches rest) :
    isGuarded clear (next :: others) ∧ ∃ between first later, sketches = later ++ first ∧
      between.length < tokens.length ∧ Called [part] tokens first between ∧
      Derives Shut [part] tokens first between ∧
      Derives Shut (next :: others) between later rest := by
  obtain ⟨hpart, hguarded⟩ := Bool.and_eq_true_iff.mp hguarded
  obtain ⟨between, first, later, rfl, hder, hothers⟩ := h.cons_split
  have hshorter := hder.grammatical.length_lt (List.cons_ne_nil _ _)
  refine ⟨hguarded, between, first, later, rfl, hshorter, hfirst.firm ?_ hder, hder, hothers⟩
  rcases Bool.or_eq_true_iff.mp hpart with hsealed | hstarts
  · exact .inl hsealed
  · exact .inr (hothers.clear_of_starts (by simpa using hstarts))

section

variable (hlater : ∀ part (later : List Token), later.length < tokens.length → Judged part later)

include hlater

theorem called_of_guarded {clear : Bool} (hguarded : isGuarded clear parts)
    (hclear : clear → Clear [.lpar] rest) (hfirst : ∀ part ∈ parts.head?, Judged part tokens)
    (h : Derives Shut parts tokens sketches rest) : Called parts tokens sketches rest := by
  fun_induction isGuarded clear parts generalizing tokens sketches with
  | case1 =>
    obtain ⟨rfl, rfl⟩ := Derives.nil_iff.mp h
    exact .inr .nil
  | case2 part =>
    refine (hfirst part rfl).firm ?_ h
    rw [Bool.or_eq_true] at hguarded
    exact hguarded.symm.imp_right hclear
  | case3 part next others ih =>
    obtain ⟨hguarded, between, first, later, rfl, hshorter, hcalled, hder, hothers⟩ :=
      called_first hguarded (hfirst part rfl) h
    refine hcalled.cons (ih ?_ hguarded (fun part _ => hlater part between hshorter) hothers) hder
      hothers
    exact fun part later hlength => hlater part later (Nat.lt_trans hlength hshorter)

theorem firm_many (hne : repetition ≠ .impliedOperands)
    (hfirst : ∀ s ∈ (Part.many repetition).firsts, Judged (.one s) tokens)
    (hrest : (Part.many repetition).isSealed ∨ Clear [.lpar] rest)
    (h : Derives Shut [.many repetition] tokens sketches rest) :
    Called [.many repetition] tokens sketches rest := by
  obtain ⟨hrounds, hstarts⟩ := guarded_rounds repetition hne
  obtain ⟨round, hround, between, first, later, rfl, hder, hothers⟩ := h.many_inversion
  have hheads : ∀ part ∈ (round.map Part.one).head?, Judged part tokens := by
    intro part hpart
    rw [List.head?_map] at hpart
    obtain ⟨s, hs, rfl⟩ := Option.map_eq_some_iff.mp hpart
    exact hfirst s (List.mem_filterMap.mpr ⟨round, hround, hs⟩)
  have hclear : (!(Part.many repetition).isSealed) → Clear [.lpar] between := by
    intro hopen
    rcases hothers with ⟨-, rfl⟩ | hothers
    · exact hrest.resolve_left (by simpa using hopen)
    · exact hothers.clear_of_starts hstarts
  have hshorter := hder.grammatical.length_lt
    (by simpa using repetition.ne_nil_of_mem_rounds round hround)
  refine Called.many_cons hround
    (called_of_guarded hlater (hrounds round hround) hclear hheads hder) hder ?_ hothers
  exact hothers.imp_right ((hlater (.many repetition) between hshorter).firm hrest)

end

/-! ## Implied products -/

/-- The first of some implied operands goes to the part before them. -/
theorem Absorbs.first_operand (h : Absorbs .impliedOperand [part] tokens first between)
    (hoperands : Derives Shut [.many .impliedOperands] between later rest) :
    ∃ others more mid, Derives Shut [part] tokens others mid ∧
      ((more = [] ∧ mid = rest) ∨ Derives Shut [.many .impliedOperands] mid more rest) ∧
      nodesOf .call first + nodesOf .call later < nodesOf .call others + nodesOf .call more := by
  obtain ⟨round, hround, mid, operand, more, rfl, hoperand, hmore⟩ := hoperands.many_inversion
  obtain rfl := List.mem_singleton.mp hround
  obtain ⟨others, hothers, hcalls⟩ := h operand mid hoperand
  refine ⟨others, more, mid, hothers, hmore, ?_⟩
  rw [nodesOf_append]
  omega

theorem Judged.called_or_absorbs {tail : Nonterminal} (h : Judged part tokens)
    (htail : part.tail? = some tail) (hder : Derives Shut [part] tokens first between) :
    Called [part] tokens first between ∨ Absorbs tail [part] tokens first between := by
  by_cases hclear : Clear [.lpar] between
  · exact .inl (h.firm (.inr hclear) hder)
  · exact h.verdict htail hclear hder

theorem firm_impliedOperands
    (hlater : ∀ part (later : List Token), later.length < tokens.length → Judged part later)
    (hfirst : Judged (.node .impliedOperand) tokens) (hrest : Clear [.lpar] rest)
    (h : Derives Shut [.many .impliedOperands] tokens sketches rest) :
    Called [.many .impliedOperands] tokens sketches rest := by
  obtain ⟨round, hround, between, first, later, rfl, hder, hothers⟩ := h.many_inversion
  obtain rfl := List.mem_singleton.mp hround
  have hshorter := hder.grammatical.length_lt (List.cons_ne_nil _ _)
  rcases hothers with hend | hothers
  · have hclear : Clear [.lpar] between := by
      obtain ⟨-, rfl⟩ := hend
      exact hrest
    exact Called.many_cons hround (hfirst.firm (.inr hclear) hder) hder (.inl hend) (.inl hend)
  · rcases hfirst.called_or_absorbs rfl hder with hcalled | habsorbs
    · exact Called.many_cons hround hcalled hder
        (.inr ((hlater _ between hshorter).firm (.inr hrest) hothers)) (.inr hothers)
    · obtain ⟨others, more, mid, hmore, hleft, hcalls⟩ := habsorbs.first_operand hothers
      refine .inl ⟨more ++ others, Derives.many_cons hround hmore hleft, ?_⟩
      rw [nodesOf_append, nodesOf_append]
      omega

theorem firm_impliedProduct
    (hlater : ∀ part (later : List Token), later.length < tokens.length → Judged part later)
    (hfirst : Judged (.node .power) tokens) (hrest : Clear [.lpar] rest)
    (h : Derives Shut [.node .impliedProduct] tokens sketches rest) :
    Called [.node .impliedProduct] tokens sketches rest := by
  obtain ⟨alternative, inside, hmay, hinside, rfl⟩ := Derives.node_iff.mp h
  have hmem := hinside.mem_shut hmay
  have hproduct : [.node .power, .many .impliedOperands] ∈ Nonterminal.impliedProduct.shut := by
    decide
  have halone : [.node .power] ∈ Nonterminal.impliedProduct.shut := by decide
  have halternatives : ∀ parts ∈ Nonterminal.impliedProduct.shut,
      parts = [.node .power, .many .impliedOperands] ∨ parts = [.node .power] := by decide
  rcases halternatives alternative hmem with rfl | rfl
  · obtain ⟨between, first, later, rfl, hpower, hoperands⟩ := hinside.cons_split
    have hshorter := hpower.grammatical.length_lt (List.cons_ne_nil _ _)
    rcases hfirst.called_or_absorbs rfl hpower with hcalled | habsorbs
    · exact (hcalled.cons ((hlater _ between hshorter).firm (.inr hrest) hoperands) hpower
        hoperands).wrap hmem (by simp)
    · -- Without its first operand the product has fewer operands, or it is the power alone.
      left
      obtain ⟨others, more, mid, hothers, hleft, hcalls⟩ := habsorbs.first_operand hoperands
      refine ⟨Nonterminal.impliedProduct.wrap (more ++ others), ?_, ?_⟩
      · rcases hleft with ⟨rfl, rfl⟩ | hleft
        · exact hothers.wrap_shut halone
        · exact (hothers.append hleft).wrap_shut hproduct
      · rw [nodesOf_wrap, nodesOf_wrap, nodesOf_append, nodesOf_append]
        omega
  · exact (hfirst.firm (.inr hrest) hinside).wrap hmem (by simp)

/-! ## Parts that a parenthesis follows -/

/-- A name before a parenthesis, called with what is in the parentheses. -/
theorem absorbs_of_name {id : Token} (hid : id.kind = .identifier) (hopen : ¬ Clear [.lpar] rest)
    (hcall : ∀ {others left}, Derives Shut [.node .call] (id :: rest) others left →
      Derives Shut [part] (id :: rest) others left) :
    Absorbs .impliedPrimary [part] (id :: rest) [.leaf id] rest := by
  intro more left hmore
  obtain ⟨alternative, inside, hmay, hinside, rfl⟩ := Derives.node_iff.mp hmore
  have hmem := hinside.mem_shut hmay
  have halternatives : ∀ parts ∈ Nonterminal.impliedPrimary.shut, parts = [.node .group] ∨
      ∀ part ∈ parts.head?, [.lpar].all (· ∉ part.starts) := by
    decide
  rcases halternatives alternative hmem with rfl | hstarts
  · obtain ⟨parts, inside, hmay, hgroup, rfl⟩ := Derives.node_iff.mp hinside
    obtain rfl := List.mem_singleton.mp hmay.1
    obtain ⟨lpar, between, later, hlpar, rfl, rfl, hrest⟩ := Derives.leaf_cons_iff.mp hgroup
    obtain ⟨closing, expression, close, rfl, hexpression, hclose⟩ := hrest.cons_split
    have harguments : Derives Shut [.node .arguments] between _ closing :=
      hexpression.wrap_shut (by decide)
    have hparts : Derives Shut [.leaf .identifier, .leaf .lpar, .node .arguments, .leaf .rpar]
        (id :: lpar :: between) _ left := .token hid (.token hlpar (harguments.append hclose))
    refine ⟨_, hcall (hparts.wrap_shut (by decide)), ?_⟩
    simp [nodesOf_wrap, nodesOf_append, nodesOf, nodes, Nonterminal.rule?]
  · obtain ⟨part, others, rfl⟩ :=
      List.exists_cons_of_ne_nil (Nonterminal.impliedPrimary.ne_nil_of_mem_alternatives _ hmay.1)
    exact absurd (hinside.clear_of_starts (hstarts part rfl)) hopen

/-- An operand with a repetition after it: the operand, the operand that it may go on with. -/
def Nonterminal.level? : Nonterminal → Option (Nonterminal × Nonterminal × Repetition)
  | indexed => some (primary, impliedPrimary, .indexes)
  | impliedIndexed => some (impliedPrimary, impliedPrimary, .indexes)
  | postfixed => some (indexed, impliedIndexed, .bangs)
  | impliedPostfixed => some (impliedIndexed, impliedIndexed, .bangs)
  | power => some (prefixed, impliedPostfixed, .powers)
  | impliedOperand => some (impliedPostfixed, impliedPostfixed, .powers)
  | _ => none

theorem Nonterminal.tail_alternatives (n : Nonterminal) : ∀ tail ∈ (Part.node n).tail?,
    ∀ parts ∈ n.shut, (isGuarded false parts ∧ parts ≠ [.leaf .identifier]) ∨
      (n = impliedPrimary ∧ parts = [.leaf .identifier]) ∨ (n = primary ∧ parts = [.node atom]) ∨
      (isGuarded true parts ∧ parts.getLast?.bind Part.tail? = some tail) ∨
      ∃ level ∈ n.level?, parts = [.node level.1] := by
  cases n <;> decide

theorem Nonterminal.level_alternatives (n : Nonterminal) : ∀ level ∈ n.level?,
    (Part.node level.1).tail? = some level.2.1 ∧
    [.node level.1] ∈ n.shut ∧ [.node level.1, .many level.2.2] ∈ n.shut ∧
    ∀ tail ∈ (Part.node n).tail?, tail ≠ call ∧ ∀ parts ∈ tail.alternatives,
      parts = [.node level.2.1] ∨ parts = [.node level.2.1, .many level.2.2] := by
  cases n <;> decide

/-- What the part below goes on over, with or without a repetition after it. -/
theorem Absorbs.level {tail lower : Nonterminal}
    (h : Absorbs lower [.node base] tokens sketches rest)
    (hbase : [.node base] ∈ n.shut) (hmany : [.node base, .many repetition] ∈ n.shut)
    (hcall : tail ≠ .call) (htail : ∀ parts ∈ tail.alternatives,
      parts = [.node lower] ∨ parts = [.node lower, .many repetition]) :
    Absorbs tail [.node n] tokens (n.wrap sketches) rest := by
  have hrule : tail.rule? ≠ some .call := by
    cases tail <;> first | exact absurd rfl hcall | decide
  intro more left hmore
  obtain ⟨alternative, inside, hmay, hinside, rfl⟩ := Derives.node_iff.mp hmore
  rcases htail alternative hmay.1 with rfl | rfl
  · obtain ⟨others, hothers, hcalls⟩ := h inside left hinside
    refine ⟨n.wrap others, hothers.wrap_shut hbase, ?_⟩
    rw [nodesOf_wrap, nodesOf_wrap, nodesOf_wrap, if_neg hrule]
    omega
  · obtain ⟨between, first, later, rfl, hfirst, hlater⟩ := hinside.cons_split
    obtain ⟨others, hothers, hcalls⟩ := h first between hfirst
    refine ⟨n.wrap (later ++ others), (hothers.append hlater).wrap_shut hmany, ?_⟩
    rw [nodesOf_wrap, nodesOf_wrap, nodesOf_wrap, if_neg hrule, nodesOf_append, nodesOf_append]
    omega

section

variable (hlater : ∀ part (later : List Token), later.length < tokens.length → Judged part later)

include hlater

/-- The last part goes on over what comes next. -/
theorem verdict_of_guarded {tail : Nonterminal} (hguarded : isGuarded true parts)
    (htail : parts.getLast?.bind Part.tail? = some tail)
    (hfirst : ∀ part ∈ parts.head?, Judged part tokens) (hopen : ¬ Clear [.lpar] rest)
    (h : Derives Shut parts tokens sketches rest) :
    Called parts tokens sketches rest ∨ Absorbs tail parts tokens sketches rest := by
  induction parts generalizing tokens sketches with
  | nil => cases htail
  | cons part parts ih =>
    cases parts with
    | nil => exact (hfirst part rfl).verdict htail hopen h
    | cons next others =>
      obtain ⟨hguarded, between, first, later, rfl, hshorter, hcalled, hder, hothers⟩ :=
        called_first hguarded (hfirst part rfl) h
      have hverdict := ih
        (fun part later hlength => hlater part later (Nat.lt_trans hlength hshorter)) hguarded
        (by simpa using htail) (fun part _ => hlater part between hshorter) hothers
      rcases hverdict with hmore | habsorbs
      · exact .inl (hcalled.cons hmore hder hothers)
      · exact .inr (habsorbs.after hder)

theorem verdict_powers (hopen : ¬ Clear [.lpar] rest) (hfirst : Judged (.leaf .pow) tokens)
    (h : Derives Shut [.many .powers] tokens sketches rest) :
    Called [.many .powers] tokens sketches rest ∨
      Absorbs .impliedOperand [.many .powers] tokens sketches rest := by
  obtain ⟨round, hmem, between, first, later, rfl, hder, hothers⟩ := h.many_inversion
  have hround := hmem
  obtain rfl := List.mem_singleton.mp hmem
  have hshorter := hder.grammatical.length_lt (by simp)
  have hheads : ∀ part ∈ [Part.leaf .pow, .node .prefixed].head?, Judged part tokens := by
    rintro _ ⟨⟩
    exact hfirst
  rcases hothers with hend | hothers
  · obtain ⟨rfl, rfl⟩ := hend
    rcases verdict_of_guarded hlater (by decide) rfl hheads hopen hder with hcalled | habsorbs
    · exact .inl (Called.many_cons hround hcalled hder (.inl ⟨rfl, rfl⟩) (.inl ⟨rfl, rfl⟩))
    · -- The operand is an exponent, and powers of it come after.
      right
      intro more left hmore
      obtain ⟨alternative, inside, hmay, hinside, rfl⟩ := Derives.node_iff.mp hmore
      have halternatives : ∀ parts ∈ Nonterminal.impliedOperand.shut,
          parts = [.node .impliedPostfixed] ∨ parts = [.node .impliedPostfixed, .many .powers] := by
        decide
      rcases halternatives alternative (hinside.mem_shut hmay) with rfl | rfl
      · obtain ⟨others, hothers, hcalls⟩ := habsorbs inside left hinside
        refine ⟨others, Derives.many_cons hround hothers (.inl ⟨rfl, rfl⟩), ?_⟩
        simpa [nodesOf_wrap, Nonterminal.rule?] using hcalls
      · obtain ⟨between, operand, powers, rfl, hoperand, hpowers⟩ := hinside.cons_split
        obtain ⟨others, hothers, hcalls⟩ := habsorbs operand between hoperand
        refine ⟨powers ++ others, Derives.many_cons hround hothers (.inr hpowers), ?_⟩
        rw [nodesOf_wrap, if_neg (by decide), List.nil_append, nodesOf_append, nodesOf_append]
        omega
  · have hguarded : isGuarded true [.leaf .pow, .node .prefixed] := by decide
    have hcalled : Called _ tokens first between := called_of_guarded hlater hguarded
      (fun _ => hothers.clear_of_starts (by decide)) hheads hder
    rcases (hlater _ between hshorter).verdict rfl hopen hothers with hmore | habsorbs
    · exact .inl (Called.many_cons hround hcalled hder (.inr hmore) (.inr hothers))
    · right
      intro more left hmore
      obtain ⟨others, hothers, hcalls⟩ := habsorbs more left hmore
      refine ⟨others ++ first, Derives.many_cons hround hder (.inr hothers), ?_⟩
      rw [nodesOf_append, nodesOf_append]
      omega

end

theorem judged_leaf (kind : Terminal) : Judged (.leaf kind) tokens where
  firm _ h := by
    obtain ⟨token, hkind, rfl, rfl⟩ := Derives.leaf_iff.mp h
    exact .inr (.token hkind .nil)
  verdict htail := by cases htail

theorem judged_many
    (hlater : ∀ part (later : List Token), later.length < tokens.length → Judged part later)
    (hfirst : ∀ s ∈ (Part.many repetition).firsts, Judged (.one s) tokens) :
    Judged (.many repetition) tokens where
  firm hrest h := by
    by_cases hne : repetition = .impliedOperands
    · subst hne
      exact firm_impliedOperands hlater (hfirst _ (by decide)) (hrest.resolve_left (by decide)) h
    · exact firm_many hlater hne hfirst hrest h
  verdict htail hopen h := by
    cases repetition
    case powers =>
      cases htail
      exact verdict_powers hlater hopen (hfirst _ (by decide)) h
    all_goals cases htail

/-- Only operands are a name alone. -/
theorem isSealed_of_name (n : Nonterminal) (hmem : [.leaf .identifier] ∈ n.alternatives) :
    (!(Part.node n).isSealed) := by
  revert hmem
  cases n <;> decide

section

variable (hlater : ∀ part (later : List Token), later.length < tokens.length → Judged part later)
  (hlower : ∀ m : Nonterminal, m.ctorIdx < n.ctorIdx → Judged (.node m) tokens)

include hlater

/-- An atom is a name or ends with a token of its own. -/
theorem called_or_name
    (hheads : ∀ alternative ∈ Nonterminal.atom.alternatives, ∀ part ∈ alternative.head?,
      Judged part tokens)
    (h : Derives Shut [.node .atom] tokens sketches rest) :
    Called [.node .atom] tokens sketches rest ∨
      ∃ id, id.kind = .identifier ∧ tokens = id :: rest ∧ sketches = [.leaf id] := by
  obtain ⟨alternative, inside, hmay, hinside, rfl⟩ := Derives.node_iff.mp h
  have hmem := hinside.mem_shut hmay
  have halternatives : ∀ parts ∈ Nonterminal.atom.shut,
      (isGuarded false parts ∧ parts ≠ [.leaf .identifier]) ∨ parts = [.leaf .identifier] := by
    decide
  rcases halternatives alternative hmem with ⟨hguarded, hname⟩ | rfl
  · exact .inl ((called_of_guarded hlater hguarded nofun (hheads _ hmay.1) hinside).wrap hmem
      fun h => absurd h hname)
  · exact .inr (Derives.leaf_iff.mp hinside)

include hlower

theorem judged_head : ∀ alternative ∈ n.alternatives, ∀ part ∈ alternative.head?,
    Judged part tokens := by
  intro alternative hmem part hpart
  have hfirsts := isBefore_of_mem_firsts n alternative hmem part hpart
  have hsymbol : ∀ s ∈ part.firsts, Judged (.one s) tokens := by
    intro s hs
    cases s with
    | terminal kind => exact judged_leaf kind
    | nonterminal m => exact hlower m (of_decide_eq_true (hfirsts _ hs))
  cases part with
  | one s => exact hsymbol s (List.mem_singleton_self s)
  | many repetition => exact judged_many hlater hsymbol

theorem firm_node (hrest : (Part.node n).isSealed ∨ Clear [.lpar] rest)
    (h : Derives Shut [.node n] tokens sketches rest) : Called [.node n] tokens sketches rest := by
  by_cases hn : n = .impliedProduct
  · subst hn
    have hclear : Clear [.lpar] rest := hrest.resolve_left (by decide)
    exact firm_impliedProduct hlater (hlower .power (by decide)) hclear h
  · obtain ⟨alternative, inside, hmay, hinside, rfl⟩ := Derives.node_iff.mp h
    have hmem := hinside.mem_shut hmay
    have hclear : (!(Part.node n).isSealed) → Clear [.lpar] rest := fun hopen =>
      hrest.resolve_left (by simpa using hopen)
    refine (called_of_guarded hlater (guarded_alternatives n hn alternative hmem) hclear
      (judged_head hlater hlower alternative hmay.1) hinside).wrap hmem fun hname => hclear ?_
    exact isSealed_of_name n (hname ▸ hmay.1)

theorem verdict_node (htail : (Part.node n).tail? = some tail) (hopen : ¬ Clear [.lpar] rest)
    (h : Derives Shut [.node n] tokens sketches rest) :
    Called [.node n] tokens sketches rest ∨ Absorbs tail [.node n] tokens sketches rest := by
  have hheads := judged_head hlater hlower
  obtain ⟨alternative, inside, hmay, hinside, rfl⟩ := Derives.node_iff.mp h
  have hmem := hinside.mem_shut hmay
  rcases n.tail_alternatives tail htail alternative hmem with
    ⟨hguarded, hname⟩ | ⟨rfl, rfl⟩ | ⟨rfl, rfl⟩ | ⟨hguarded, hlast⟩ |
      ⟨⟨base, lower, repetition⟩, hlevel, rfl⟩
  · left
    exact (called_of_guarded hlater hguarded nofun (hheads _ hmay.1) hinside).wrap hmem
      fun h => absurd h hname
  · cases htail
    obtain ⟨id, hid, rfl, rfl⟩ := Derives.leaf_iff.mp hinside
    exact .inr (absorbs_of_name hid hopen fun hcall => hcall.wrap_shut (by decide))
  · cases htail
    have hlowest : ∀ m : Nonterminal, m.ctorIdx < Nonterminal.atom.ctorIdx →
        Judged (.node m) tokens := fun m hm => hlower m (Nat.lt_trans hm (by decide))
    rcases called_or_name hlater (judged_head hlater hlowest) hinside with
      hcalled | ⟨id, hid, rfl, rfl⟩
    · exact .inl (hcalled.wrap hmem (by simp))
    · exact .inr (absorbs_of_name hid hopen fun hcall => hcall.wrap_shut (by decide))
  · refine (verdict_of_guarded hlater hguarded hlast (hheads _ hmay.1) hopen hinside).imp ?_ ?_
    · exact fun hcalled => hcalled.wrap hmem (by rintro rfl; cases hlast)
    · exact fun habsorbs => habsorbs.wrap hmem
  · obtain ⟨hbase, -, hmany, htails⟩ := n.level_alternatives _ hlevel
    obtain ⟨hcall, htails⟩ := htails tail htail
    refine ((hheads _ hmay.1 _ rfl).verdict hbase hopen hinside).imp ?_ ?_
    · exact fun hcalled => hcalled.wrap hmem (by simp)
    · exact fun habsorbs => habsorbs.level hmem hmany hcall htails

omit hlower

theorem judged_node (n : Nonterminal) : Judged (.node n) tokens := by
  induction hindex : n.ctorIdx using Nat.strongRecOn generalizing n with
  | ind index ih =>
    have hlower : ∀ m : Nonterminal, m.ctorIdx < n.ctorIdx → Judged (.node m) tokens :=
      fun m hm => ih m.ctorIdx (hindex ▸ hm) m rfl
    exact ⟨firm_node hlater hlower, verdict_node hlater hlower⟩

end

theorem judged (part : Part) (tokens : List Token) : Judged part tokens := by
  induction hlength : tokens.length using Nat.strongRecOn generalizing part tokens with
  | ind length ih =>
    have hlater : ∀ part (later : List Token), later.length < tokens.length → Judged part later :=
      fun part later hshorter => ih later.length (hlength ▸ hshorter) part later rfl
    have hone : ∀ s : Symbol, Judged (.one s) tokens
      | .terminal kind => judged_leaf kind
      | .nonterminal n => judged_node hlater n
    cases part with
    | one s => exact hone s
    | many repetition => exact judged_many hlater fun s _ => hone s

/-- A derivation with the most calls has no name before a parenthesis that stands alone. -/
theorem Derives.fits (h : Derives Shut [part] tokens sketches [])
    (hmost : ∀ others, Derives Shut [part] tokens others [] →
      nodesOf .call others ≤ nodesOf .call sketches) :
    Derives Fits [part] tokens sketches [] := by
  have hnone : Clear [.lpar] [] := fun t ht => nomatch ht
  rcases (judged part tokens).firm (.inr hnone) h with ⟨others, hothers, hmore⟩ | hfits
  · exact absurd (hmost others hothers) (Nat.not_le_of_lt hmore)
  · exact hfits

end Calculator.Grammar
