import Calculator.Evaluation.Walk
import Calculator.Proofs.Grammar.Spelling
import Calculator.Proofs.Hazard.Arithmetic

/-!
# How nodes fail

What the nodes below a node come to plays the roles that the nodes play. So a node whose children
are spelled by an alternative finds all that it looks for, and an operator for each mark between two
values.
-/

namespace Calculator

open Grammar

variable {hazard : Hazard} {site : Site}

/-! ## Roles of meanings -/

def Meaning.role : Meaning → Role
  | .mark kind _ => .mark kind
  | .value _ => .value
  | .values _ => .values
  | .entry .. => .entry
  | .target _ => .target
  | .decorator _ => .decorator

namespace Meaning

variable {meaning : Meaning}

@[simp]
theorem role_eq_mark {kind : Terminal} :
    meaning.role = .mark kind ↔ ∃ text, meaning = .mark kind text := by
  cases meaning <;> simp [role]

@[simp]
theorem role_eq_value : meaning.role = .value ↔ ∃ v, meaning = .value v := by
  cases meaning <;> simp [role]

@[simp]
theorem role_eq_values : meaning.role = .values ↔ ∃ vs, meaning = .values vs := by
  cases meaning <;> simp [role]

@[simp]
theorem role_eq_entry : meaning.role = .entry ↔ ∃ key v, meaning = .entry key v := by
  cases meaning <;> simp [role]

@[simp]
theorem role_eq_target : meaning.role = .target ↔ ∃ index, meaning = .target index := by
  cases meaning <;> simp [role]

end Meaning

/-- The meanings that may stand for a symbol. -/
def Grammar.Symbol.Means (s : Symbol) (meaning : Meaning) : Prop := meaning.role ∈ s.roles

namespace Grammar.Symbol.Means

variable {s : Symbol} {kind : Terminal} {meaning : Meaning}

theorem mark (h : (Symbol.terminal kind).Means meaning) (hkind : kind.role = .mark kind) :
    ∃ text, meaning = .mark kind text :=
  Meaning.role_eq_mark.mp ((List.mem_singleton.mp h).trans hkind)

theorem value (h : s.Means meaning) (hs : s.roles = [.value]) : ∃ v, meaning = .value v := by
  rw [Symbol.Means, hs] at h
  exact Meaning.role_eq_value.mp (List.mem_singleton.mp h)

theorem entry (h : (Symbol.nonterminal .entry).Means meaning) :
    ∃ key v, meaning = .entry key v :=
  Meaning.role_eq_entry.mp (List.mem_singleton.mp h)

end Grammar.Symbol.Means

/-! ## Rounds -/

/-- As many rounds as there are, or none. -/
abbrev Repeated (repetition : Repetition) (meanings : List Meaning) : Prop :=
  meanings = [] ∨ Rounds Symbol.Means repetition meanings

/-- What holds of no meanings, and still holds with a round before them, holds of all rounds. -/
@[elab_as_elim]
theorem Repeated.induction {repetition : Repetition} {meanings : List Meaning}
    {P : List Meaning → Prop} (h : Repeated repetition meanings) (hnil : P [])
    (hround : ∀ round others, Round Symbol.Means repetition round → P others →
      P (round ++ others)) : P meanings := by
  rcases h with rfl | h
  · exact hnil
  · rw [← List.append_nil meanings]
    exact h.prepend hround hnil

/-- What comes again and again between the children of a node, or after its first child. -/
def Grammar.Rule.repetition? : Rule → Option Repetition
  | .sum => some .sums
  | .product => some .products
  | .power => some .powers
  | .shift => some .shifts
  | .bitAnd => some .bitAnds
  | .bitXor => some .bitXors
  | .bitOr => some .bitOrs
  | .impliedProduct => some .impliedOperands
  | .comparison => some .comparisons
  | .conjunction => some .conjunctions
  | .disjunction => some .disjunctions
  | .postfixed => some .bangs
  | .indexed => some .indexes
  | .arguments => some .moreArguments
  | _ => none

theorem first_of_repetition (n : Nonterminal) : ∀ rule ∈ n.rule?, ∀ repetition ∈ rule.repetition?,
    ∀ alternative ∈ n.alternatives, ∃ m ∈ Nonterminal.all, m.roles = [.value] ∧
      alternative ∈ [[.node m], [.node m, .many repetition]] := by
  cases n <;> decide

/-- An alternative of the node spells what the nodes below have come to. -/
def Fits (rule : Rule) (meanings : List Meaning) : Prop :=
  ∃ n : Nonterminal, n.rule? = some rule ∧ ∃ alternative ∈ n.alternatives,
    Spells Symbol.Means alternative meanings

variable {repetition : Repetition} {rule : Rule} {round rest meanings : List Meaning}

theorem Fits.first (h : Fits rule meanings) (hrepetition : rule.repetition? = some repetition) :
    ∃ v rest, meanings = .value v :: rest ∧ Repeated repetition rest := by
  obtain ⟨n, hrule, alternative, hmem, h⟩ := h
  obtain ⟨m, -, hroles, hform⟩ := first_of_repetition n rule hrule repetition hrepetition _ hmem
  simp only [List.mem_cons, List.not_mem_nil, or_false] at hform
  rcases hform with rfl | rfl
  · simp only [Spells.one_iff, Spells.nil_iff] at h
    obtain ⟨first, _, hfirst, rfl, rfl⟩ := h
    obtain ⟨v, rfl⟩ := hfirst.value hroles
    exact ⟨v, [], rfl, .inl rfl⟩
  · simp only [Spells.one_iff, Spells.many_iff, Spells.nil_iff] at h
    obtain ⟨first, _, hfirst, ⟨rounds, _, hrounds, rfl, rfl⟩, rfl⟩ := h
    obtain ⟨v, rfl⟩ := hfirst.value hroles
    exact ⟨v, rounds, by rw [List.append_nil], .inr hrounds⟩

namespace Combination

/-! ## Operators -/

/-- Rounds of an operator and its right side. -/
def isOperators (repetition : Repetition) : Bool :=
  [.powers, .products, .sums, .shifts, .bitAnds, .bitXors, .bitOrs].contains repetition

theorem operator_of_round (h : isOperators repetition) :
    ∀ symbols ∈ repetition.rounds, ∃ kind operator m,
      symbols = [.terminal kind, .nonterminal m] ∧ kind.role = .mark kind ∧
        Operator.ofTerminal? kind = some operator ∧ m.roles = [.value] := by
  cases repetition <;> first
    | contradiction
    | repeat' first
        | exact List.forall_mem_nil _
        | refine List.forall_mem_cons.mpr ⟨⟨_, _, _, rfl, rfl, rfl, rfl⟩, ?_⟩

theorem foldOperators_safe (hoperators : isOperators repetition) (h : Repeated repetition rest) :
    ∀ left, (foldOperators site left rest).Safe hazard := by
  refine h.induction ?_ ?_
  · intro left
    exact .ok trivial
  rintro round others ⟨symbols, hsymbols, hround⟩ ih left
  obtain ⟨kind, operator, m, rfl, hkind, hoperator, hm⟩ := operator_of_round hoperators _ hsymbols
  simp only [List.forall₂_cons_left_iff, List.forall₂_nil_left_iff] at hround
  obtain ⟨_, _, hmark, ⟨_, _, hright, rfl, rfl⟩, rfl⟩ := hround
  obtain ⟨text, rfl⟩ := hmark.mark hkind
  obtain ⟨right, rfl⟩ := hright.value hm
  simp only [List.cons_append, List.nil_append, foldOperators, hoperator]
  exact .bind (operator.apply_safe left right) fun v _ => ih v

theorem foldProduct_safe (h : Repeated .impliedOperands rest) :
    ∀ left, (foldProduct site left rest).Safe hazard := by
  refine h.induction ?_ ?_
  · intro left
    exact .ok trivial
  rintro round others ⟨symbols, hsymbols, hround⟩ ih left
  obtain rfl := List.mem_singleton.mp hsymbols
  simp only [List.forall₂_cons_left_iff, List.forall₂_nil_left_iff] at hround
  obtain ⟨_, _, hright, rfl, rfl⟩ := hround
  obtain ⟨right, rfl⟩ := hright.value rfl
  exact .bind (Operator.apply_safe .multiply left right) fun v _ => ih v

/-- Each mark of a comparison has its comparator. -/
theorem comparator_of_mem {meaning : Meaning} (h : meaning.role ∈ Nonterminal.comparator.roles) :
    ∃ kind text comparator, meaning = .mark kind text ∧
      Comparator.ofTerminal? kind = some comparator := by
  simp only [Nonterminal.roles, List.mem_cons, List.not_mem_nil, or_false,
    Meaning.role_eq_mark] at h
  rcases h with h | h | h | h | h | h
  all_goals
    obtain ⟨text, rfl⟩ := h
    exact ⟨_, text, _, rfl, rfl⟩

theorem foldComparisons_safe (h : Repeated .comparisons rest) :
    ∀ left, (foldComparisons site left rest).Safe hazard := by
  refine h.induction ?_ ?_
  · intro left
    exact .ok trivial
  rintro round others ⟨symbols, hsymbols, hround⟩ ih left
  obtain rfl := List.mem_singleton.mp hsymbols
  simp only [List.forall₂_cons_left_iff, List.forall₂_nil_left_iff] at hround
  obtain ⟨_, _, hmark, ⟨_, _, hright, rfl, rfl⟩, rfl⟩ := hround
  obtain ⟨kind, text, comparator, rfl, hcomparator⟩ := comparator_of_mem hmark
  obtain ⟨right, rfl⟩ := hright.value rfl
  simp only [List.cons_append, List.nil_append, foldComparisons, hcomparator]
  exact .bind (comparator.compare_safe left right) fun truth _ => ih (.bool truth)

/-- Rounds of a mark and a value. -/
def isSeparated (repetition : Repetition) : Bool :=
  [.conjunctions, .disjunctions, .moreArguments].contains repetition

theorem value_of_round (h : isSeparated repetition)
    (hround : Round Symbol.Means repetition round) :
    ∃ kind text v, round = [.mark kind text, .value v] := by
  obtain ⟨symbols, hsymbols, hround⟩ := hround
  cases repetition
  case conjunctions | disjunctions | moreArguments =>
    obtain rfl := List.mem_singleton.mp hsymbols
    simp only [List.forall₂_cons_left_iff, List.forall₂_nil_left_iff] at hround
    obtain ⟨_, _, hmark, ⟨_, _, hvalue, rfl, rfl⟩, rfl⟩ := hround
    obtain ⟨text, rfl⟩ := hmark.mark rfl
    obtain ⟨v, rfl⟩ := hvalue.value rfl
    exact ⟨_, text, v, rfl⟩
  all_goals contradiction

theorem operands_safe (hseparated : isSeparated repetition) (h : Repeated repetition rest) :
    ∀ v, (operands site (.value v :: rest)).Safe hazard := by
  refine h.induction ?_ ?_
  · intro v
    exact .ok trivial
  intro round others hround ih v
  obtain ⟨kind, text, next, rfl⟩ := value_of_round hseparated hround
  exact .lift (ih next)

theorem signed_safe (h : Rounds Symbol.Means .signs round) (v : Value) :
    (signed site (round ++ [.value v])).Safe hazard := by
  refine h.prepend (P := fun meanings => (signed site meanings).Safe hazard) ?_ (.ok trivial)
  rintro round others ⟨symbols, hsymbols, hround⟩ hothers
  simp only [Repetition.rounds, List.mem_cons, List.not_mem_nil, or_false] at hsymbols
  rcases hsymbols with rfl | rfl
  all_goals
    obtain ⟨_, _, hmark, hnil, rfl⟩ := List.forall₂_cons_left_iff.mp hround
    obtain rfl := List.forall₂_nil_left_iff.mp hnil
    obtain ⟨text, rfl⟩ := hmark.mark rfl
  · exact .bind hothers fun v _ => Arithmetic.negate_safe v
  · exact .bind hothers fun v _ => Arithmetic.complement_safe v

theorem factorials_safe (h : Repeated .bangs rest) :
    ∀ v, (factorials site v rest).Safe hazard := by
  refine h.induction ?_ ?_
  · intro v
    exact .ok trivial
  rintro round others ⟨symbols, hsymbols, hround⟩ ih v
  obtain rfl := List.mem_singleton.mp hsymbols
  obtain ⟨_, _, hmark, hnil, rfl⟩ := List.forall₂_cons_left_iff.mp hround
  obtain rfl := List.forall₂_nil_left_iff.mp hnil
  obtain ⟨text, rfl⟩ := hmark.mark rfl
  exact .bind (Arithmetic.factorial_safe v) fun w _ => ih w

theorem indexes_safe (h : Repeated .indexes rest) :
    ∀ v, (indexes site v rest).Safe hazard := by
  refine h.induction ?_ ?_
  · intro v
    exact .ok trivial
  rintro round others ⟨symbols, hsymbols, hround⟩ ih v
  obtain rfl := List.mem_singleton.mp hsymbols
  simp only [List.forall₂_cons_left_iff, List.forall₂_nil_left_iff] at hround
  obtain ⟨_, _, hopening, ⟨_, _, hindex, ⟨_, _, hclosing, rfl, rfl⟩, rfl⟩, rfl⟩ := hround
  obtain ⟨a, rfl⟩ := hopening.mark rfl
  obtain ⟨index, rfl⟩ := hindex.value rfl
  obtain ⟨b, rfl⟩ := hclosing.mark rfl
  exact .bind (Value.lookup_safe v index) fun w _ => ih w

/-! ## Arrays and objects -/

/-- What stands between brackets is one value, or several. -/
theorem inside_of_mem {meaning : Meaning} (h : meaning.role ∈ Nonterminal.arguments.roles) :
    (∃ v, meaning = .value v) ∨ ∃ vs, meaning = .values vs := by
  simpa [Nonterminal.roles] using h

theorem insertEntries_safe (h : Repeated .moreEntries rest) (text : String) :
    ∀ entries, (insertEntries site entries (rest ++ [.mark .rbrace text])).Safe hazard := by
  refine h.induction ?_ ?_
  · intro entries
    exact .ok trivial
  rintro round others ⟨symbols, hsymbols, hround⟩ ih entries
  obtain rfl := List.mem_singleton.mp hsymbols
  simp only [List.forall₂_cons_left_iff, List.forall₂_nil_left_iff] at hround
  obtain ⟨_, _, hcomma, ⟨_, _, hentry, rfl, rfl⟩, rfl⟩ := hround
  obtain ⟨a, rfl⟩ := hcomma.mark rfl
  obtain ⟨key, v, rfl⟩ := hentry.entry
  exact ih (entries.insert key v)

/-! ## Values of nodes -/

/-- The node has a value that depends on nothing but those below it. -/
def isValued (rule : Rule) : Bool :=
  [.sum, .product, .power, .shift, .bitAnd, .bitXor, .bitOr, .impliedProduct, .comparison,
    .conjunction, .disjunction, .prefixed, .postfixed, .indexed, .group, .array,
    .object].contains rule

theorem prefixed_safe (h : Fits .prefixed meanings) : (signed site meanings).Safe hazard := by
  obtain ⟨alternative, hmem, h⟩ := spelled_by .prefixed rfl (by decide) h
  simp only [Nonterminal.alternatives, List.mem_cons, List.not_mem_nil, or_false] at hmem
  rcases hmem with rfl | rfl | rfl
  · simp only [Spells.many_iff, Spells.one_iff, Spells.nil_iff] at h
    obtain ⟨rounds, _, hrounds, ⟨_, _, hvalue, rfl, rfl⟩, rfl⟩ := h
    obtain ⟨v, rfl⟩ := hvalue.value rfl
    exact signed_safe hrounds v
  all_goals
    simp only [Spells.one_iff, Spells.nil_iff] at h
    obtain ⟨_, _, hvalue, rfl, rfl⟩ := h
    obtain ⟨v, rfl⟩ := hvalue.value rfl
    exact .ok trivial

theorem group_safe (h : Fits .group meanings) : (value site .group meanings).Safe hazard := by
  obtain ⟨alternative, hmem, h⟩ := spelled_by .group rfl (by decide) h
  obtain rfl := List.mem_singleton.mp hmem
  simp only [Spells.one_iff, Spells.nil_iff] at h
  obtain ⟨_, _, hopening, ⟨_, _, hvalue, ⟨_, _, hclosing, rfl, rfl⟩, rfl⟩, rfl⟩ := h
  obtain ⟨a, rfl⟩ := hopening.mark rfl
  obtain ⟨v, rfl⟩ := hvalue.value rfl
  obtain ⟨b, rfl⟩ := hclosing.mark rfl
  exact .ok trivial

theorem array_safe (h : Fits .array meanings) : (value site .array meanings).Safe hazard := by
  obtain ⟨alternative, hmem, h⟩ := spelled_by .array rfl (by decide) h
  simp only [Nonterminal.alternatives, List.mem_cons, List.not_mem_nil, or_false] at hmem
  rcases hmem with rfl | rfl
  · simp only [Spells.one_iff, Spells.nil_iff] at h
    obtain ⟨_, _, hopening, ⟨_, _, hinside, ⟨_, _, hclosing, rfl, rfl⟩, rfl⟩, rfl⟩ := h
    obtain ⟨a, rfl⟩ := hopening.mark rfl
    obtain ⟨b, rfl⟩ := hclosing.mark rfl
    rcases inside_of_mem hinside with ⟨v, rfl⟩ | ⟨vs, rfl⟩
    · exact .ok trivial
    · exact .ok trivial
  · simp only [Spells.one_iff, Spells.nil_iff] at h
    obtain ⟨_, _, hopening, ⟨_, _, hclosing, rfl, rfl⟩, rfl⟩ := h
    obtain ⟨a, rfl⟩ := hopening.mark rfl
    obtain ⟨b, rfl⟩ := hclosing.mark rfl
    exact .ok trivial

theorem object_safe (h : Fits .object meanings) : (value site .object meanings).Safe hazard := by
  obtain ⟨alternative, hmem, h⟩ := spelled_by .object rfl (by decide) h
  simp only [Nonterminal.alternatives, List.mem_cons, List.not_mem_nil, or_false] at hmem
  rcases hmem with rfl | rfl | rfl
  · simp only [Spells.many_iff, Spells.one_iff, Spells.nil_iff] at h
    obtain ⟨_, _, hopening, ⟨_, _, hentry, ⟨rounds, _, hrounds, ⟨_, _, hclosing, rfl, rfl⟩, rfl⟩,
      rfl⟩, rfl⟩ := h
    obtain ⟨a, rfl⟩ := hopening.mark rfl
    obtain ⟨key, v, rfl⟩ := hentry.entry
    obtain ⟨b, rfl⟩ := hclosing.mark rfl
    exact .lift (insertEntries_safe (.inr hrounds) b _)
  · simp only [Spells.one_iff, Spells.nil_iff] at h
    obtain ⟨_, _, hopening, ⟨_, _, hentry, ⟨_, _, hclosing, rfl, rfl⟩, rfl⟩, rfl⟩ := h
    obtain ⟨a, rfl⟩ := hopening.mark rfl
    obtain ⟨key, v, rfl⟩ := hentry.entry
    obtain ⟨b, rfl⟩ := hclosing.mark rfl
    exact .ok trivial
  · simp only [Spells.one_iff, Spells.nil_iff] at h
    obtain ⟨_, _, hopening, ⟨_, _, hclosing, rfl, rfl⟩, rfl⟩ := h
    obtain ⟨a, rfl⟩ := hopening.mark rfl
    obtain ⟨b, rfl⟩ := hclosing.mark rfl
    exact .ok trivial

theorem value_safe (hvalued : isValued rule) (h : Fits rule meanings) :
    (value site rule meanings).Safe hazard := by
  cases rule
  case sum | product | power | shift | bitAnd | bitXor | bitOr =>
    obtain ⟨v, rest, rfl, hrest⟩ := h.first rfl
    exact foldOperators_safe rfl hrest v
  case impliedProduct =>
    obtain ⟨v, rest, rfl, hrest⟩ := h.first rfl
    exact foldProduct_safe hrest v
  case comparison =>
    obtain ⟨v, rest, rfl, hrest⟩ := h.first rfl
    exact foldComparisons_safe hrest v
  case conjunction | disjunction =>
    obtain ⟨v, rest, rfl, hrest⟩ := h.first rfl
    exact .lift (operands_safe rfl hrest v)
  case prefixed => exact prefixed_safe h
  case postfixed =>
    obtain ⟨v, rest, rfl, hrest⟩ := h.first rfl
    exact factorials_safe hrest v
  case indexed =>
    obtain ⟨v, rest, rfl, hrest⟩ := h.first rfl
    exact indexes_safe hrest v
  case group => exact group_safe h
  case array => exact array_safe h
  case object => exact object_safe h
  all_goals cases hvalued

end Combination

end Calculator
