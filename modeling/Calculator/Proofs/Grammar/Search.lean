import Calculator.Proofs.Grammar.Ending

/-!
# Searching one place of a chart

A relation between a place, the parts read from there and the tokens that are then left holds of
all that a search finds if it holds of all symbols and can be put together.
-/

namespace Calculator.Grammar

variable {found : Found} {next : Nat → Found} {view : View} {place rest : Nat} {e : Ending}

/-! ## One part after the other -/

theorem View.mem_extend (h : e ∈ (extend next found).ends) : ∃ a ∈ found.ends,
    ∃ b ∈ (next a.rest).ends, e.rest = b.rest ∧ e.parts = b.parts ++ a.parts := by
  rcases Found.mem_foldr_merge h with ⟨a, ha, h⟩ | h
  · obtain ⟨b, hb, rfl⟩ := List.mem_map.mp h
    exact ⟨a, ha, b, hb, rfl, rfl⟩
  · cases h

/-- The last part goes on from what the other parts have left. -/
theorem View.mem_alternative_concat {parts : List Part} {part : Part}
    (h : e ∈ (view.alternative (parts ++ [part]) place).ends) :
    ∃ a ∈ (view.alternative parts place).ends, ∃ b ∈ (view.part a.rest part).ends,
      e.rest = b.rest ∧ e.parts = b.parts ++ a.parts := by
  have hlast : view.alternative (parts ++ [part]) place =
      extend (view.part · part) (view.alternative parts place) := by
    rw [alternative, List.foldl_append]
    rfl
  rw [hlast] at h
  exact mem_extend h

theorem View.leaves_extend : Leaves (extend next found).ends rest ↔
    ∃ e ∈ found.ends, Leaves (next e.rest).ends rest := by
  rw [extend, Found.leaves_foldr_merge]
  simp [Leaves]

/-! ## What holds of all that is found -/

/-- From the place on, each ending has parts and leaves tokens as the relation says. -/
def Found.Holds (R : Nat → List Sketch → Nat → Prop) (place : Nat) (found : Found) : Prop :=
  ∀ e ∈ found.ends, R place e.parts e.rest

/-- The relation, or nothing read yet. -/
def OrStart (R : Nat → List Sketch → Nat → Prop) (place : Nat) (parts : List Sketch) (rest : Nat) :
    Prop :=
  (parts = [] ∧ rest = place) ∨ R place parts rest

/-- Readings one after the other are one reading. The later parts come first. -/
def Composes (R : Nat → List Sketch → Nat → Prop) : Prop :=
  ∀ ⦃a b c first second⦄, R a first b → R b second c → R a (second ++ first) c

def Part.symbols : Part → List Symbol
  | .one symbol => [symbol]
  | .many repetition => repetition.rounds.flatten

theorem Repetition.ne_nil_of_mem_rounds (repetition : Repetition) :
    ∀ round ∈ repetition.rounds, round ≠ [] := by
  cases repetition <;> decide

theorem Nonterminal.ne_nil_of_mem_alternatives (n : Nonterminal) :
    ∀ parts ∈ n.alternatives, parts ≠ [] := by
  cases n <;> decide

section

variable {R : Nat → List Sketch → Nat → Prop}

theorem Found.holds_merge {a b : Found} (ha : a.Holds R place) (hb : b.Holds R place) :
    (merge a b).Holds R place := by
  intro e he
  exact (mem_merge he).elim (ha e) (hb e)

theorem Found.Holds.orStart (h : found.Holds R place) : found.Holds (OrStart R) place :=
  fun e he => .inr (h e he)

theorem holds_extend (hR : Composes R) (hfound : found.Holds (OrStart R) place)
    (hnext : ∀ q, (next q).Holds R q) : (View.extend next found).Holds R place := by
  intro e he
  obtain ⟨a, ha, b, hb, hrest, hparts⟩ := View.mem_extend he
  rw [hrest, hparts]
  rcases hfound a ha with ⟨hempty, hstart⟩ | hread
  · rw [hempty, List.append_nil, ← hstart]
    exact hnext a.rest b hb
  · exact hR hread (hnext a.rest b hb)

theorem holds_foldl {α : Type} {next : α → Nat → Found} (hR : Composes R) {steps : List α}
    (hne : steps ≠ []) (hnext : ∀ step ∈ steps, ∀ q, (next step q).Holds R q)
    (hfound : found.Holds (OrStart R) place) :
    (steps.foldl (fun found step => View.extend (next step) found) found).Holds R place := by
  induction steps generalizing found with
  | nil => exact absurd rfl hne
  | cons step steps ih =>
    obtain ⟨hstep, hsteps⟩ := List.forall_mem_cons.mp hnext
    have hfirst := holds_extend hR hfound hstep
    cases steps with
    | nil => exact hfirst
    | cons => exact ih (List.cons_ne_nil _ _) hsteps hfirst.orStart

theorem holds_start : (⟨[.start place], place⟩ : Found).Holds (OrStart R) place := by
  intro e he
  rw [List.mem_singleton.mp he]
  exact .inl ⟨rfl, rfl⟩

theorem View.mem_round {rounds : List (List Symbol)} {shift : Nat} {f : Ending}
    (h : f ∈ (view.round rounds shift e).ends) : ∃ symbols ∈ rounds,
      ∃ g ∈ (view.symbols ⟨[e], e.rest⟩ symbols).ends, f.rest = g.rest ∧ f.parts = g.parts := by
  rcases Found.mem_foldr_merge h with ⟨pair, hpair, h⟩ | h
  · obtain ⟨g, hg, rfl⟩ := List.mem_map.mp h
    obtain ⟨g', hg', hrest, hparts⟩ := Found.mem_withOrder hg
    exact ⟨pair.1, List.fst_mem_of_mem_zipIdx hpair, g', hg', hrest.symm, hparts.symm⟩
  · cases h

section Rounds

variable {rounds : List (List Symbol)} (hR : Composes R) (hne : ∀ round ∈ rounds, round ≠ [])
  (hsymbol : ∀ s ∈ rounds.flatten, ∀ q, (view.symbol q s).Holds R q)

include hR hne hsymbol

theorem holds_round {shift : Nat} (he : OrStart R place e.parts e.rest) :
    (view.round rounds shift e).Holds R place := by
  intro f hf
  obtain ⟨symbols, hmem, g, hg, hrest, hparts⟩ := View.mem_round hf
  rw [hrest, hparts]
  have hsymbols : ∀ s ∈ symbols, ∀ q, (view.symbol q s).Holds R q := fun s hs =>
    hsymbol s (List.mem_flatten_of_mem hmem hs)
  apply holds_foldl hR (hne symbols hmem) hsymbols _ g hg
  intro a ha
  rw [List.mem_singleton.mp ha]
  exact he

theorem holds_moreRounds {fuel : Nat} {pending : Found} (h : pending.Holds R place) :
    (view.moreRounds rounds fuel pending).Holds R place := by
  fun_induction View.moreRounds view rounds fuel pending with
  | case1 => exact fun e he => absurd he List.not_mem_nil
  | case2 => exact h
  | case3 fuel pending e others hends next found ih =>
    -- The first ending is kept, and another round goes on from it.
    rw [Found.Holds, hends, List.forall_mem_cons] at h
    refine List.forall_mem_cons.mpr ⟨h.1, ih ?_⟩
    exact Found.holds_merge (holds_round hR hne hsymbol (.inr h.1)) h.2

theorem holds_repetition {repetition : Repetition} (hrounds : repetition.rounds = rounds) :
    (view.repetition repetition place).Holds R place := by
  unfold View.repetition
  rw [hrounds]
  exact holds_moreRounds hR hne hsymbol (holds_round hR hne hsymbol (.inl ⟨rfl, rfl⟩))

end Rounds

theorem holds_part (hR : Composes R) {part : Part}
    (hsymbol : ∀ s ∈ part.symbols, ∀ q, (view.symbol q s).Holds R q) :
    (view.part place part).Holds R place := by
  cases part with
  | one s => exact hsymbol s List.mem_cons_self place
  | many repetition =>
    exact holds_repetition hR repetition.ne_nil_of_mem_rounds hsymbol rfl

theorem holds_alternative (hR : Composes R) {parts : List Part} (hne : parts ≠ [])
    (hsymbol : ∀ part ∈ parts, ∀ s ∈ part.symbols, ∀ q, (view.symbol q s).Holds R q) :
    (view.alternative parts place).Holds R place := by
  exact holds_foldl hR hne (fun part hpart q => holds_part hR (hsymbol part hpart)) holds_start

end

theorem View.descending_round {rounds : List (List Symbol)} {shift : Nat} :
    Descending (view.round rounds shift e).ends :=
  Found.descending_foldr_merge .nil

/-! ## A nonterminal -/

/-- What the node above gets for the parts of a nonterminal. -/
def Nonterminal.wrap (n : Nonterminal) (parts : List Sketch) : List Sketch :=
  match n.rule? with
  | some rule => [.node rule parts]
  | none => parts

namespace View

variable {n : Nonterminal}

theorem mem_search (h : e ∈ (view.search n).ends) : ∃ parts ∈ n.alternatives,
    ∃ f ∈ (view.alternative parts (view.below.size + 1)).ends,
      e.rest = f.rest ∧ e.parts = n.wrap f.parts := by
  obtain ⟨f, hf, rfl⟩ := List.mem_map.mp h
  rcases Found.mem_foldr_merge hf with ⟨pair, hpair, hf⟩ | hf
  · obtain ⟨g, hg, hrest, hparts⟩ := Found.mem_withOrder hf
    exact ⟨pair.1, List.fst_mem_of_mem_zipIdx hpair, g, hg, hrest.symm,
      congrArg n.wrap hparts.symm⟩
  · cases hf

/-- What an alternative leaves is left after the nonterminal, by this alternative or another. -/
theorem leaves_search : Leaves (view.search n).ends rest ↔
    ∃ parts ∈ n.alternatives, Leaves (view.alternative parts (view.below.size + 1)).ends rest := by
  have hclose : Leaves (view.search n).ends rest ↔ Leaves (n.alternatives.zipIdx.foldr
      (fun pair others => ((view.alternative pair.1 (view.below.size + 1)).withOrder
        pair.2).merge others)
      (.nothing (view.below.size + 1))).ends rest := by
    simp only [Leaves, search, List.map_map, Function.comp_def]
    rfl
  rw [hclose, Found.leaves_foldr_merge]
  simp only [Found.leaves_withOrder]
  constructor
  · rintro (⟨pair, hpair, h⟩ | h)
    · exact ⟨pair.1, List.fst_mem_of_mem_zipIdx hpair, h⟩
    · cases h
  · rintro ⟨parts, hparts, h⟩
    rw [← List.zipIdx_map_fst 0 n.alternatives] at hparts
    obtain ⟨pair, hpair, rfl⟩ := List.mem_map.mp hparts
    exact .inl ⟨pair, hpair, h⟩

theorem descending_search : Descending (view.search n).ends := by
  unfold search Descending
  rw [List.pairwise_map]
  exact Found.descending_foldr_merge .nil

end View

theorem holds_search {R : Nat → List Sketch → Nat → Prop} {n : Nonterminal} (hR : Composes R)
    (hsymbol : ∀ parts ∈ n.alternatives, ∀ part ∈ parts, ∀ s ∈ part.symbols, ∀ q,
      (view.symbol q s).Holds R q)
    (h : e ∈ (view.search n).ends) :
    ∃ parts, R (view.below.size + 1) parts e.rest ∧ e.parts = n.wrap parts := by
  obtain ⟨parts, hmem, f, hf, hrest, hparts⟩ := View.mem_search h
  refine ⟨f.parts, ?_, hparts⟩
  rw [hrest]
  exact holds_alternative hR (n.ne_nil_of_mem_alternatives parts hmem) (hsymbol parts hmem) f hf

end Calculator.Grammar
