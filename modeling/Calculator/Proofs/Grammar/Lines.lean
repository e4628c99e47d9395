import Calculator.Grammar.Parser
import Calculator.Proofs.Grammar.Reading

/-!
# Lines

A line is read as a line body. The tokens of an expression alone are a line with this expression,
since no decorator and no mark of an open line is among them.
-/

namespace Calculator.Grammar

open Sketch

variable {tokens : List Token} {token : Token} {view : View} {place : Nat} {n : Nonterminal}
  {e : Ending}

/-! ## Decorators -/

/-- What any part has read is there in the end. -/
theorem View.mem_alternative {parts : List Part} {part : Part} (hpart : part ∈ parts)
    (h : e ∈ (view.alternative parts place).ends) :
    ∃ q, ∃ b ∈ (view.part q part).ends, ∀ sketch ∈ b.parts, sketch ∈ e.parts := by
  induction parts using List.reverseRecOn generalizing e with
  | nil => cases hpart
  | append_singleton parts last ih =>
    obtain ⟨a, ha, b, hb, -, hparts⟩ := mem_alternative_concat h
    rw [hparts]
    rcases List.mem_append.mp hpart with hpart | hpart
    · obtain ⟨q, c, hc, hsub⟩ := ih hpart ha
      exact ⟨q, c, hc, fun sketch hsketch => List.mem_append_right _ (hsub sketch hsketch)⟩
    · rw [List.mem_singleton.mp hpart]
      exact ⟨a.rest, b, hb, fun sketch hsketch => List.mem_append_left _ hsketch⟩

theorem mem_leavesOf {parts : List Sketch} :
    token ∈ leavesOf parts ↔ ∃ sketch ∈ parts, token ∈ sketch.leaves := by
  induction parts with
  | nil => simp [leavesOf]
  | cons sketch parts ih => simp [leavesOf, ih, or_comm]

theorem leavesOf_wrap (n : Nonterminal) (parts : List Sketch) :
    leavesOf (n.wrap parts) = leavesOf parts := by
  unfold Nonterminal.wrap
  cases n.rule? with
  | none => rfl
  | some rule => simp [leavesOf, leaves]

theorem atSign_mem_of_found (hn : n = .decorator ∨ n = .strayDecorator)
    (h : e ∈ ((Chart.ofTokens tokens).found n place).ends) :
    ∃ t ∈ leavesOf e.parts, t.kind = .atSign := by
  refine Chart.found_induction (P := fun _ n _ e => n = .decorator ∨ n = .strayDecorator →
    ∃ t ∈ leavesOf e.parts, t.kind = .atSign) (fun _ _ _ _ _ _ h => h) ?_ tokens n place e h hn
  intro token tokens n hfound e he hn
  obtain ⟨parts, hmem, f, hf, -, hparts⟩ := View.mem_search he
  rw [hparts, leavesOf_wrap]
  rcases hn with rfl | rfl
  · have hpart : ∀ parts ∈ Nonterminal.decorator.alternatives, .leaf .atSign ∈ parts := by decide
    obtain ⟨q, b, hb, hsub⟩ := View.mem_alternative (hpart parts hmem) hf
    obtain ⟨_, t, -, -, hkind, -, hleaf⟩ := View.mem_symbol_terminal hb
    exact ⟨t, mem_leavesOf.mpr ⟨.leaf t, hsub _ (by simp [hleaf]), by simp [leaves]⟩, hkind⟩
  · have hpart : ∀ parts ∈ Nonterminal.strayDecorator.alternatives, .node .decorator ∈ parts := by
      decide
    obtain ⟨q, b, hb, hsub⟩ := View.mem_alternative (hpart parts hmem) hf
    obtain ⟨t, ht, hkind⟩ := hfound .decorator q b hb (.inl rfl)
    obtain ⟨sketch, hsketch, ht⟩ := mem_leavesOf.mp ht
    exact ⟨t, mem_leavesOf.mpr ⟨sketch, hsub sketch hsketch, ht⟩, hkind⟩

theorem mem_of_leaf (h : e ∈ ((Chart.ofTokens tokens).found n place).ends)
    (ht : token ∈ leavesOf e.parts) : token ∈ tokens := by
  have hmem : token ∈ tokens.rtake place := by
    rw [(reading_of_found h).leaves]
    exact List.mem_append_left _ ht
  exact List.mem_of_mem_drop hmem

/-! ## An expression as a line -/

/-- No token is a mark at the end of a line. -/
def AllInner (tokens : List Token) : Prop := ∀ t ∈ tokens, (Symbol.terminal t.kind).isInner

theorem AllInner.no_decorator (h : AllInner tokens) (hn : n = .decorator ∨ n = .strayDecorator) :
    ((Chart.ofTokens tokens).found n place).ends = [] := by
  rw [List.eq_nil_iff_forall_not_mem]
  intro e he
  obtain ⟨t, ht, hkind⟩ := atSign_mem_of_found hn he
  have hinner := h t (mem_of_leaf he ht)
  rw [hkind] at hinner
  cases hinner

theorem AllInner.view_decorator (h : AllInner (token :: tokens))
    (hn : n = .decorator ∨ n = .strayDecorator) (m : Nonterminal) :
    (((Chart.ofTokens tokens).view token m).found n place).ends = [] := by
  rw [List.eq_nil_iff_forall_not_mem]
  intro e he
  have htokens : AllInner tokens := fun t ht => h t (List.mem_cons_of_mem token ht)
  rcases Chart.mem_ends_view he with ⟨-, he⟩ | ⟨-, -, he⟩
  · rw [htokens.no_decorator hn] at he
    cases he
  · rw [← Chart.ofTokens, h.no_decorator hn] at he
    cases he

/-- Only the alternative of a single expression is possible. -/
theorem AllInner.alternative_of_lineBody (h : AllInner (token :: tokens)) {parts : List Part}
    (hparts : parts ∈ Nonterminal.lineBody.alternatives) (he : e ∈
      (((Chart.ofTokens tokens).view token .lineBody).alternative parts (tokens.length + 1)).ends) :
    ∃ f ∈ ((Chart.ofTokens (token :: tokens)).found .expression (tokens.length + 1)).ends,
      e.rest = f.rest ∧ e.parts = f.parts := by
  have hdecorator {n : Nonterminal} (hn : n = .decorator ∨ n = .strayDecorator) :
      .node n ∉ parts := by
    intro hmem
    obtain ⟨q, b, hb, -⟩ := View.mem_alternative hmem he
    have hb : b ∈ (((Chart.ofTokens tokens).view token .lineBody).found n q).ends := hb
    rw [h.view_decorator hn] at hb
    cases hb
  have hopenLine : .leaf .openLine ∉ parts := by
    intro hmem
    obtain ⟨q, b, hb, -⟩ := View.mem_alternative hmem he
    obtain ⟨rest, t, rfl, ht, hkind, -⟩ := View.mem_symbol_terminal hb
    rw [Chart.token_view] at ht
    have hinner := h t (List.mem_reverse.mp (List.mem_of_getElem? ht))
    rw [hkind] at hinner
    cases hinner
  simp only [Nonterminal.alternatives, List.mem_cons, List.not_mem_nil, or_false] at hparts
  rcases hparts with rfl | rfl | rfl | rfl
  · exact absurd (by simp) (hdecorator (.inl rfl))
  · have he : e ∈ (View.alternative _ ([] ++ [.node .expression]) _).ends := he
    obtain ⟨a, ha, b, hb, hrest, hparts⟩ := View.mem_alternative_concat he
    rw [List.mem_singleton.mp ha] at hb hparts
    have hb : b ∈ (((Chart.ofTokens tokens).view token .lineBody).found .expression
      (tokens.length + 1)).ends := hb
    rw [Chart.found_view_ofTokens (by decide)] at hb
    exact ⟨b, hb, hrest, hparts.trans (List.append_nil b.parts)⟩
  · exact absurd (by simp) hopenLine
  · exact absurd (by simp) (hdecorator (.inr rfl))

theorem Chart.descending_found (tokens : List Token) (n : Nonterminal) :
    Descending ((ofTokens tokens).found n tokens.length).ends := by
  cases tokens with
  | nil => exact .nil
  | cons token tokens =>
    have hsearch : (ofTokens (token :: tokens)).found n ((ofTokens tokens).size + 1) =
      ((ofTokens tokens).view token n).search n := found_add_top
    rw [size_ofTokens] at hsearch
    rw [List.length_cons, hsearch]
    exact View.descending_search

theorem Line.read_of_expression (hinner : AllInner tokens)
    (h : e ∈ ((Chart.ofTokens tokens).found .expression tokens.length).ends) (hrest : e.rest = 0) :
    Line.read ⟨tokens, none⟩ = .ok e.parts := by
  cases tokens with
  | nil => cases h
  | cons token tokens =>
    have hsearch : (Chart.ofTokens (token :: tokens)).top .lineBody =
        ((Chart.ofTokens tokens).view token .lineBody).search .lineBody := by
      rw [Chart.top_eq_found, Chart.ofTokens, Chart.size_add, Chart.found_add_top]
    have hsize : ((Chart.ofTokens tokens).view token .lineBody).below.size = tokens.length :=
      Chart.size_ofTokens
    have hleaves : Leaves ((Chart.ofTokens (token :: tokens)).top .lineBody).ends 0 := by
      rw [hsearch, View.leaves_search, hsize]
      refine ⟨[.node .expression], by decide, ?_⟩
      have hexpression : Leaves (((Chart.ofTokens tokens).view token .lineBody).found .expression
          (tokens.length + 1)).ends 0 := by
        rw [Chart.found_view_ofTokens (by decide)]
        exact leaves_iff.mpr ⟨e, h, hrest⟩
      have hstart : Ending.start (tokens.length + 1) ∈
          (⟨[.start (tokens.length + 1)], tokens.length + 1⟩ : Found).ends := List.mem_cons_self
      exact View.leaves_extend.mpr ⟨_, hstart, hexpression⟩
    have hparts : ∀ f ∈ ((Chart.ofTokens (token :: tokens)).top .lineBody).ends, f.rest = 0 →
        f.parts = e.parts := by
      intro f hf hzero
      rw [hsearch] at hf
      obtain ⟨parts, hmem, g, hg, hrestF, hpartsF⟩ := View.mem_search hf
      rw [hsize] at hg
      obtain ⟨c, hc, hrestG, hpartsG⟩ := hinner.alternative_of_lineBody hmem hg
      have hsame : c = e := (Chart.descending_found _ _).eq_of_rest hc h (by omega)
      rw [hpartsF, ← hsame, ← hpartsG]
      rfl
    -- Some ending goes to the end, and all that do have the parts of the expression.
    obtain ⟨f, hf, hzero⟩ := leaves_iff.mp hleaves
    have hsome : (((Chart.ofTokens (token :: tokens)).top .lineBody).ends.find?
        fun e => e.rest = 0).isSome := List.find?_isSome.mpr ⟨f, hf, by simpa using hzero⟩
    obtain ⟨g, hg⟩ := Option.isSome_iff_exists.mp hsome
    have hgzero : g.rest = 0 := by simpa using List.find?_some hg
    have hgparts := hparts g (List.mem_of_find?_eq_some hg) hgzero
    simp only [Line.read, List.isEmpty_cons, hg, hgparts]
    rfl

/-! ## The lines of a script -/

theorem Line.prefix_of_split {first : Line} {lines : List Line}
    (h : Line.split tokens = first :: lines) : first.body <+: tokens := by
  induction tokens generalizing first lines with
  | nil => cases h
  | cons token tokens ih =>
    rw [split] at h
    split at h
    case isTrue =>
      cases h
      exact List.nil_prefix
    case isFalse =>
      split at h
      case h_1 =>
        cases h
        exact List.prefix_append [token] tokens
      case h_2 line others hsplit =>
        cases h
        exact List.cons_prefix_cons.mpr ⟨rfl, ih hsplit⟩

theorem Line.infix_of_mem_split {line : Line} (h : line ∈ Line.split tokens) :
    line.body <:+: tokens := by
  induction tokens generalizing line with
  | nil => cases h
  | cons token tokens ih =>
    cases hsplit : split (token :: tokens) with
    | nil =>
      rw [hsplit] at h
      cases h
    | cons first lines =>
      rw [hsplit] at h
      rcases List.mem_cons.mp h with rfl | hlater
      · exact (prefix_of_split hsplit).isInfix
      · apply List.infix_cons
        apply ih
        rw [split] at hsplit
        split at hsplit
        case isTrue =>
          cases hsplit
          exact hlater
        case isFalse =>
          split at hsplit
          case h_1 =>
            cases hsplit
            cases hlater
          case h_2 second others hothers =>
            cases hsplit
            rw [hothers]
            exact List.mem_cons_of_mem second hlater

theorem Line.split_of_no_newline (hne : tokens ≠ []) (h : ∀ t ∈ tokens, t.kind ≠ .newline) :
    Line.split tokens = [⟨tokens, none⟩] := by
  induction tokens with
  | nil => exact absurd rfl hne
  | cons token tokens ih =>
    obtain ⟨htoken, htokens⟩ := List.forall_mem_cons.mp h
    rw [split, if_neg htoken]
    cases tokens with
    | nil => rfl
    | cons second tokens => rw [ih (List.cons_ne_nil _ _) htokens]

end Calculator.Grammar
