import Calculator.Proofs.Grammar.Cells
import Mathlib.Data.List.DropRight

/-!
# What a chart has read

The leaves of an ending are the tokens between its place and those that are left. The body of a
definition is what the chart of the tokens from the body on prefers for an expression.
-/

namespace Calculator.Grammar

namespace Sketch

mutual

def leaves : Sketch → List Token
  | .leaf token => [token]
  | .node _ parts => leavesOf parts

/-- The last sketch comes first. -/
def leavesOf : List Sketch → List Token
  | [] => []
  | sketch :: sketches => leavesOf sketches ++ sketch.leaves

end

mutual

/-- Each node is as the property says. -/
def All (P : Rule → List Sketch → Prop) : Sketch → Prop
  | .leaf _ => True
  | .node rule parts => P rule parts ∧ AllOf P parts

def AllOf (P : Rule → List Sketch → Prop) : List Sketch → Prop
  | [] => True
  | sketch :: sketches => sketch.All P ∧ AllOf P sketches

end

variable {P Q : Rule → List Sketch → Prop} {first second : List Sketch}

theorem leavesOf_append :
    leavesOf (second ++ first) = leavesOf first ++ leavesOf second := by
  induction second with
  | nil => simp [leavesOf]
  | cons sketch sketches ih => rw [List.cons_append, leavesOf, ih, leavesOf, List.append_assoc]

theorem allOf_append : AllOf P (second ++ first) ↔ AllOf P second ∧ AllOf P first := by
  induction second with
  | nil => simp [AllOf]
  | cons sketch sketches ih => rw [List.cons_append, AllOf, ih, AllOf, and_assoc]

theorem allOf_iff {sketches : List Sketch} :
    AllOf P sketches ↔ ∀ sketch ∈ sketches, sketch.All P := by
  induction sketches with
  | nil => simp [AllOf]
  | cons sketch sketches ih => rw [AllOf, ih, List.forall_mem_cons]

mutual

theorem All.mono (h : ∀ rule parts, P rule parts → Q rule parts) :
    ∀ {sketch : Sketch}, sketch.All P → sketch.All Q
  | .leaf _, _ => trivial
  | .node rule parts, hall => ⟨h rule parts hall.1, AllOf.mono h hall.2⟩

theorem AllOf.mono (h : ∀ rule parts, P rule parts → Q rule parts) :
    ∀ {sketches : List Sketch}, AllOf P sketches → AllOf Q sketches
  | [], _ => trivial
  | _ :: _, hall => ⟨All.mono h hall.1, AllOf.mono h hall.2⟩

end

end Sketch

open Sketch

variable {tokens : List Token} {token : Token} {view : View} {place : Nat} {n : Nonterminal}
  {e : Ending}

/-! ## Symbols -/

theorem View.mem_symbol_terminal {kind : Terminal}
    (h : e ∈ (view.symbol place (.terminal kind)).ends) : ∃ rest token, place = rest + 1 ∧
      view.token? place = some token ∧ token.kind = kind ∧
        e.rest = rest ∧ e.parts = [.leaf token] := by
  simp only [symbol] at h
  cases htoken : view.token? place with
  | none =>
    rw [htoken] at h
    cases h
  | some token =>
    rw [htoken] at h
    by_cases hkind : token.kind = kind
    · simp only [if_pos hkind] at h
      obtain rfl := List.mem_singleton.mp h
      cases place with
      | zero => cases htoken
      | succ rest => exact ⟨rest, token, rfl, rfl, hkind, rfl, rfl⟩
    · simp only [if_neg hkind] at h
      cases h

theorem rtake_succ {rest : Nat} (h : tokens.reverse[rest]? = some token) :
    tokens.rtake (rest + 1) = token :: tokens.rtake rest := by
  rw [List.rtake_eq_reverse_take_reverse, List.rtake_eq_reverse_take_reverse,
    List.take_add_one, h]
  simp

theorem rtake_cons (h : place ≤ tokens.length) :
    (token :: tokens).rtake place = tokens.rtake place := by
  simp only [List.rtake, List.length_cons]
  rw [Nat.succ_sub h, List.drop_succ_cons]

theorem Chart.token_view {rest : Nat} :
    ((ofTokens tokens).view token n).token? (rest + 1) = (token :: tokens).reverse[rest]? := by
  rw [List.reverse_cons]
  simp only [view, View.token?, size_ofTokens]
  rcases Nat.lt_trichotomy rest tokens.length with hlt | rfl | hgt
  · rw [if_neg (Nat.ne_of_lt hlt), token_ofTokens,
      List.getElem?_append_left (by rwa [List.length_reverse])]
  · simp
  · rw [if_neg (Nat.ne_of_gt hgt), token_ofTokens, List.getElem?_eq_none (by simp; omega),
      List.getElem?_eq_none (by simp; omega)]

/-! ## The nodes of a tree -/

/-- A node has parts. The last part of a definition is the expression that is preferred. -/
def Known (tokens : List Token) (rule : Rule) (parts : List Sketch) : Prop :=
  parts ≠ [] ∧ (rule = .definition → ∃ before after body others, ∃ e : Ending,
    tokens = before ++ (body.leaves ++ after) ∧ parts = body :: others ∧ others ≠ [] ∧
      e ∈ ((Chart.ofTokens (body.leaves ++ after)).found .expression
        (body.leaves ++ after).length).ends ∧
      e.rest = after.length ∧ e.parts = [body])

/-- What was read from a place on, with so many tokens left. -/
structure Reading (tokens : List Token) (place : Nat) (parts : List Sketch) (rest : Nat) :
    Prop where
  ne_nil : parts ≠ []
  lt : rest < place
  leaves : tokens.rtake place = leavesOf parts ++ tokens.rtake rest
  nodes : AllOf (Known tokens) parts

theorem Reading.composes : Composes (Reading tokens) := by
  intro a b c first second hfirst hsecond
  refine ⟨?_, Nat.lt_trans hsecond.lt hfirst.lt, ?_, ?_⟩
  · exact List.append_ne_nil_of_left_ne_nil hsecond.ne_nil first
  · rw [leavesOf_append, List.append_assoc, ← hsecond.leaves, hfirst.leaves]
  · exact allOf_append.mpr ⟨hsecond.nodes, hfirst.nodes⟩

theorem Known.cons {rule : Rule} {parts : List Sketch} (h : Known tokens rule parts) :
    Known (token :: tokens) rule parts := by
  refine ⟨h.1, fun hrule => ?_⟩
  obtain ⟨before, after, body, others, e, htokens, hknown⟩ := h.2 hrule
  exact ⟨token :: before, after, body, others, e, congrArg (token :: ·) htokens, hknown⟩

theorem Reading.cons {parts : List Sketch} {rest : Nat} (hplace : place ≤ tokens.length)
    (h : Reading tokens place parts rest) : Reading (token :: tokens) place parts rest := by
  refine ⟨h.ne_nil, h.lt, ?_, AllOf.mono (fun _ _ => Known.cons) h.nodes⟩
  rw [rtake_cons hplace, rtake_cons (Nat.le_of_lt (Nat.lt_of_lt_of_le h.lt hplace)), h.leaves]

/-! ## What is found -/

variable {R : Nat → List Sketch → Nat → Prop}

/-- What a relation says of one token and of all that a search sees, it says of all symbols. -/
theorem holds_symbol {s : Symbol}
    (hterminal : ∀ kind t rest, s = .terminal kind → t.kind = kind →
      view.token? (rest + 1) = some t → R (rest + 1) [.leaf t] rest)
    (hnonterminal : ∀ m, s = .nonterminal m → (view.found m place).Holds R place) :
    (view.symbol place s).Holds R place := by
  intro e he
  cases s with
  | terminal kind =>
    obtain ⟨rest, t, rfl, ht, hkind, hrest, hparts⟩ := View.mem_symbol_terminal he
    rw [hrest, hparts]
    exact hterminal kind t rest rfl hkind ht
  | nonterminal m => exact hnonterminal m rfl e he

/-- Without a node of its own, a nonterminal stands for one symbol. -/
theorem Nonterminal.alternatives_of_no_rule (hline : n ≠ .lineBody) (hrule : n.rule? = none) :
    ∀ parts ∈ n.alternatives, ∃ s, parts = [.one s] ∧ s ≠ .nonterminal .lineBody := by
  revert hline hrule
  cases n <;> simp [rule?, alternatives]

theorem found_eq_singleton (hline : n ≠ .lineBody)
    (h : e ∈ ((Chart.ofTokens tokens).found n place).ends) : ∃ sketch, e.parts = [sketch] := by
  refine Chart.found_induction (P := fun _ n _ e => n ≠ .lineBody → ∃ sketch, e.parts = [sketch])
    (fun _ _ _ _ _ _ h => h) ?_ tokens n place e h hline
  intro token tokens n hfound e he hline
  obtain ⟨parts, hmem, f, hf, -, hparts⟩ := View.mem_search he
  rw [hparts, Nonterminal.wrap]
  cases hrule : n.rule? with
  | some rule => exact ⟨_, rfl⟩
  | none =>
    obtain ⟨s, rfl, hs⟩ := n.alternatives_of_no_rule hline hrule parts hmem
    have hf : f ∈ (View.alternative _ ([] ++ [.one s]) _).ends := hf
    obtain ⟨a, ha, b, hb, -, hparts⟩ := View.mem_alternative_concat hf
    rw [List.mem_singleton.mp ha] at hparts
    simp only [hparts, Ending.start, List.append_nil]
    cases s with
    | terminal kind =>
      obtain ⟨_, t, -, -, -, -, hparts⟩ := View.mem_symbol_terminal hb
      exact ⟨_, hparts⟩
    | nonterminal m => exact hfound m _ b hb fun hm => hs (congrArg Symbol.nonterminal hm)

/-- What stands inside of an expression. -/
def Symbol.isInner : Symbol → Bool
  | .terminal kind => kind ≠ .atSign && kind ≠ .openLine && kind ≠ .newline
  | .nonterminal n => n ≠ .decorator && n ≠ .strayDecorator && n ≠ .lineBody

theorem isInner_of_mem_symbols (hn : (Symbol.nonterminal n).isInner) : ∀ parts ∈ n.alternatives,
    ∀ part ∈ parts, ∀ s ∈ part.symbols, s.isInner := by
  revert hn
  cases n <;> decide

/-- No token of an expression is a mark at the end of a line. -/
theorem isInner_of_found (hn : (Symbol.nonterminal n).isInner)
    (h : e ∈ ((Chart.ofTokens tokens).found n place).ends) :
    ∀ t ∈ leavesOf e.parts, (Symbol.terminal t.kind).isInner := by
  let R : Nat → List Sketch → Nat → Prop := fun _ parts _ =>
    ∀ t ∈ leavesOf parts, (Symbol.terminal t.kind).isInner
  have hR : Composes R := by
    intro _ _ _ first second hfirst hsecond t ht
    rw [leavesOf_append, List.mem_append] at ht
    exact ht.elim (hfirst t) (hsecond t)
  refine Chart.found_induction
    (P := fun _ n place e => (Symbol.nonterminal n).isInner → R place e.parts e.rest)
    (fun _ _ _ _ _ _ h => h) ?_ tokens n place e h hn
  intro token tokens n hfound e he hn
  have hsymbols : ∀ alternative ∈ n.alternatives, ∀ part ∈ alternative, ∀ s ∈ part.symbols, ∀ q,
      (((Chart.ofTokens tokens).view token n).symbol q s).Holds R q := by
    intro alternative halternative part hpart s hs q
    have hinner := isInner_of_mem_symbols hn alternative halternative part hpart s hs
    apply holds_symbol
    · rintro kind t rest rfl rfl -
      simpa [R, leavesOf, leaves] using hinner
    · rintro m rfl f hf
      exact hfound m q f hf hinner
  obtain ⟨parts, hparts, heq⟩ := holds_search hR hsymbols he
  rw [heq, Nonterminal.wrap]
  cases n.rule? with
  | none => exact hparts
  | some rule => simpa [R, leavesOf, leaves] using hparts

/-! ## Readings -/

theorem Chart.found_append {before : List Token} (h : place ≤ tokens.length) :
    (ofTokens (before ++ tokens)).found n place = (ofTokens tokens).found n place := by
  induction before with
  | nil => rfl
  | cons t before ih =>
    rw [List.cons_append, ofTokens, found_add_below (by simp; omega), ih]

theorem append_rtake (tokens : List Token) (place : Nat) :
    ∃ before, tokens = before ++ tokens.rtake place :=
  ⟨tokens.take (tokens.length - place), (List.take_append_drop _ tokens).symm⟩

theorem length_rtake (h : place ≤ tokens.length) : (tokens.rtake place).length = place := by
  rw [List.rtake, List.length_drop]
  omega

/-- All alternatives of a definition end with its body. -/
theorem alternatives_definition : ∀ parts ∈ Nonterminal.definition.alternatives,
    parts = parts.dropLast ++ [.node .expression] ∧ parts.dropLast ≠ [] := by
  decide

theorem eq_definition (h : n.rule? = some .definition) : n = .definition := by
  revert h
  cases n <;> decide

section

variable (hfound : ∀ m q, ∀ f ∈ (((Chart.ofTokens tokens).view token n).found m q).ends,
  Reading (token :: tokens) q f.parts f.rest)

include hfound

theorem reading_of_symbol (s : Symbol) (q : Nat) :
    (((Chart.ofTokens tokens).view token n).symbol q s).Holds (Reading (token :: tokens)) q := by
  apply holds_symbol
  · rintro kind t rest - - ht
    refine ⟨List.cons_ne_nil _ _, Nat.lt_succ_self rest, ?_, trivial, trivial⟩
    rw [Chart.token_view] at ht
    rw [rtake_succ ht]
    rfl
  · exact fun m _ f hf => hfound m q f hf

/-- The body of a definition stands in the chart of the tokens from it on. -/
theorem known_of_definition {parts : List Part}
    (hparts : parts ∈ Nonterminal.definition.alternatives)
    (h : e ∈ (((Chart.ofTokens tokens).view token n).alternative parts (tokens.length + 1)).ends) :
    Known (token :: tokens) .definition e.parts := by
  obtain ⟨hlast, hne⟩ := alternatives_definition parts hparts
  rw [hlast] at h
  -- `a` has read the head and the equals sign, `b` the body after them.
  obtain ⟨a, ha, b, hb, hrest, heq⟩ := View.mem_alternative_concat h
  have hfirst := holds_alternative Reading.composes hne
    (fun _ _ s _ q => reading_of_symbol hfound s q) a ha
  have hplace : a.rest ≤ tokens.length := Nat.le_of_lt_succ hfirst.lt
  have hexpression : b ∈ ((Chart.ofTokens tokens).found .expression a.rest).ends := by
    rwa [← Chart.found_view_below (by rwa [Chart.size_ofTokens])]
  obtain ⟨body, hbody⟩ := found_eq_singleton (by decide) hexpression
  have hread := hfound .expression a.rest b hb
  have hafter : b.rest ≤ tokens.length := Nat.le_of_lt (Nat.lt_of_lt_of_le hread.lt hplace)
  have hleaves : tokens.rtake a.rest = body.leaves ++ tokens.rtake b.rest := by
    rw [← rtake_cons hplace, ← rtake_cons hafter, hread.leaves, hbody]
    rfl
  obtain ⟨before, hbefore⟩ := append_rtake tokens a.rest
  have hlength := length_rtake hplace
  rw [hleaves] at hbefore hlength
  rw [hbefore, Chart.found_append (Nat.le_of_eq hlength.symm)] at hexpression
  rw [heq, hbody]
  refine ⟨List.cons_ne_nil _ _, fun _ => ?_⟩
  refine ⟨token :: before, tokens.rtake b.rest, body, a.parts, b, ?_, rfl, hfirst.ne_nil, ?_, ?_,
    hbody⟩
  · exact congrArg (token :: ·) hbefore
  · rwa [hlength]
  · exact (length_rtake hafter).symm

end

theorem reading_of_found (h : e ∈ ((Chart.ofTokens tokens).found n place).ends) :
    Reading tokens place e.parts e.rest := by
  refine Chart.found_induction (P := fun tokens _ place e => Reading tokens place e.parts e.rest)
    (fun _ _ _ _ _ hplace h => h.cons hplace) ?_ tokens n place e h
  intro token tokens n hfound e he
  obtain ⟨alternative, halternative, f, hf, hrest, hparts⟩ := View.mem_search he
  have hsize : ((Chart.ofTokens tokens).view token n).below.size = tokens.length :=
    Chart.size_ofTokens
  rw [hsize] at hf
  have hreading := holds_alternative Reading.composes
    (n.ne_nil_of_mem_alternatives alternative halternative)
    (fun _ _ s _ q => reading_of_symbol hfound s q) f hf
  rw [hrest, hparts, Nonterminal.wrap]
  cases hrule : n.rule? with
  | none => exact hreading
  | some rule =>
    refine ⟨List.cons_ne_nil _ _, hreading.lt, hreading.leaves, ⟨⟨hreading.ne_nil, ?_⟩,
      hreading.nodes⟩, trivial⟩
    rintro rfl
    obtain rfl := eq_definition hrule
    exact (known_of_definition hfound halternative hf).2 rfl

end Calculator.Grammar
