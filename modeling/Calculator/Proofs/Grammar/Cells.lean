import Calculator.Proofs.Grammar.Search
import Mathlib.Data.List.Induction

/-!
# The cells of a chart

The cell of a place is found by the same search wherever the place stands. A search sees the cells
of the places after its own, and of its own place those of the nonterminals before.
-/

namespace Calculator.Grammar

variable {chart : Chart} {token : Token} {tokens : List Token} {n m : Nonterminal} {place : Nat}

theorem Nonterminal.all_eq (n : Nonterminal) :
    all = all.take n.ctorIdx ++ n :: all.drop (n.ctorIdx + 1) := by
  cases n <;> rfl

theorem Nonterminal.length_take_all (n : Nonterminal) :
    (all.take n.ctorIdx).length = n.ctorIdx := by
  cases n <;> rfl

namespace Chart

/-- What the nonterminal can be at a place. -/
def found (chart : Chart) (n : Nonterminal) : Nat → Found
  | 0 => .nothing 0
  | place + 1 =>
    ((chart[place]?.map (·.found)).getD #[]).getD n.ctorIdx (.nothing (place + 1))

/-- What some nonterminals can be at one more token, each seeing those before it. -/
def row (chart : Chart) (token : Token) (ns : List Nonterminal) : Array Found :=
  ns.foldl (fun here n => here.push (View.search ⟨chart, token, here⟩ n)) #[]

/-- What a search at one more token sees. -/
def view (chart : Chart) (token : Token) (n : Nonterminal) : View :=
  ⟨chart, token, chart.row token (Nonterminal.all.take n.ctorIdx)⟩

theorem row_concat (ns : List Nonterminal) : chart.row token (ns ++ [n]) =
    (chart.row token ns).push (View.search ⟨chart, token, chart.row token ns⟩ n) := by
  simp [row]

@[simp]
theorem size_row (ns : List Nonterminal) : (chart.row token ns).size = ns.length := by
  induction ns using List.reverseRecOn with
  | nil => rfl
  | append_singleton ns n ih =>
    rw [row_concat, Array.size_push, ih, List.length_append]
    rfl

/-- More nonterminals do not change what was found before. -/
theorem getElem?_row_append (ns more : List Nonterminal) {i : Nat} (hi : i < ns.length) :
    (chart.row token (ns ++ more))[i]? = (chart.row token ns)[i]? := by
  induction more using List.reverseRecOn with
  | nil => rw [List.append_nil]
  | append_singleton more n ih =>
    rw [← List.append_assoc, row_concat]
    rw [Array.getElem?_push, if_neg (by simp; omega), ih]

theorem getElem?_row (ns more : List Nonterminal) :
    (chart.row token (ns ++ n :: more))[ns.length]? =
      some (View.search ⟨chart, token, chart.row token ns⟩ n) := by
  rw [List.append_cons, getElem?_row_append _ _ (by simp), row_concat, ← size_row ns,
    Array.getElem?_push_size]

theorem getElem?_add_size : (chart.add token)[chart.size]? =
    some ⟨token, chart.row token Nonterminal.all⟩ := Array.getElem?_push_size

theorem getElem?_add (h : place < chart.size) : (chart.add token)[place]? = chart[place]? := by
  rw [add, Array.getElem?_push, if_neg (Nat.ne_of_lt h)]

theorem found_add_below (h : place ≤ chart.size) :
    (chart.add token).found n place = chart.found n place := by
  cases place with
  | zero => rfl
  | succ place => rw [found, getElem?_add h, found]

theorem found_add_top :
    (chart.add token).found n (chart.size + 1) = (chart.view token n).search n := by
  have hcell : (chart.row token Nonterminal.all)[n.ctorIdx]? =
      some ((chart.view token n).search n) := by
    have hrow : (chart.row token _)[_]? = some ((chart.view token n).search n) :=
      getElem?_row (Nonterminal.all.take n.ctorIdx) (Nonterminal.all.drop (n.ctorIdx + 1))
    rwa [← n.all_eq, n.length_take_all] at hrow
  rw [found, getElem?_add_size]
  simp [hcell, view]

/-! ## What a search sees -/

theorem found_view_below (h : place ≤ chart.size) :
    (chart.view token n).found m place = chart.found m place := by
  cases place with
  | zero => rfl
  | succ place =>
    have hne : place ≠ chart.size := Nat.ne_of_lt h
    simp [view, View.found, found, hne]

theorem found_view_top (h : m.ctorIdx < n.ctorIdx) :
    (chart.view token n).found m (chart.size + 1) =
      (chart.add token).found m (chart.size + 1) := by
  have hlonger : (chart.row token Nonterminal.all)[m.ctorIdx]? =
      (chart.row token (Nonterminal.all.take n.ctorIdx))[m.ctorIdx]? := by
    conv_lhs => rw [n.all_eq]
    exact getElem?_row_append _ _ (by rwa [n.length_take_all])
  rw [found, getElem?_add_size]
  simp [view, View.found, hlonger]

/-- Nothing at places before the own one, and of the own place only what comes before. -/
theorem ends_view_eq_nil
    (h : chart.size + 1 < place ∨ (place = chart.size + 1 ∧ n.ctorIdx ≤ m.ctorIdx)) :
    ((chart.view token n).found m place).ends = [] := by
  cases place with
  | zero => rfl
  | succ place =>
    rcases h with hbefore | ⟨hplace, hlater⟩
    · have hne : place ≠ chart.size := by omega
      have hnone : chart[place]? = none := Array.getElem?_eq_none (by omega)
      simp [view, View.found, hne, hnone, Found.nothing]
    · cases hplace
      have hnone : (chart.row token (Nonterminal.all.take n.ctorIdx))[m.ctorIdx]? = none := by
        apply Array.getElem?_eq_none
        rwa [size_row, Nonterminal.length_take_all]
      simp [view, View.found, hnone, Found.nothing]

theorem mem_ends_view {e : Ending} (h : e ∈ ((chart.view token n).found m place).ends) :
    (place ≤ chart.size ∧ e ∈ (chart.found m place).ends) ∨
      (place = chart.size + 1 ∧ m.ctorIdx < n.ctorIdx ∧
        e ∈ ((chart.add token).found m (chart.size + 1)).ends) := by
  by_cases hnil : chart.size + 1 < place ∨ (place = chart.size + 1 ∧ n.ctorIdx ≤ m.ctorIdx)
  · rw [ends_view_eq_nil hnil] at h
    cases h
  · by_cases hplace : place ≤ chart.size
    · rw [found_view_below hplace] at h
      exact .inl ⟨hplace, h⟩
    · obtain rfl : place = chart.size + 1 := by omega
      have hearlier : m.ctorIdx < n.ctorIdx := by omega
      rw [found_view_top hearlier] at h
      exact .inr ⟨rfl, hearlier, h⟩

/-! ## The chart of some tokens -/

@[simp]
theorem size_add : (chart.add token).size = chart.size + 1 := Array.size_push _

@[simp]
theorem size_ofTokens : (ofTokens tokens).size = tokens.length := by
  induction tokens with
  | nil => rfl
  | cons token tokens ih => rw [ofTokens, size_add, ih, List.length_cons]

theorem ends_found_eq_nil (h : chart.size < place) : (chart.found n place).ends = [] := by
  cases place with
  | zero => rfl
  | succ place =>
    have hnone : chart[place]? = none := Array.getElem?_eq_none (by omega)
    simp [found, hnone, Found.nothing]

theorem top_eq_found (chart : Chart) : chart.top n = chart.found n chart.size := by
  unfold top
  rcases Nat.eq_zero_or_pos chart.size with hsize | hsize
  · rw [Array.size_eq_zero_iff.mp hsize]
    rfl
  · rw [Array.back?_eq_getElem?]
    obtain ⟨last, hlast⟩ := Nat.exists_eq_add_one.mpr hsize
    have hcell : chart[last]? = some chart[last] := Array.getElem?_eq_getElem (by omega)
    simp only [hlast, Nat.add_sub_cancel, hcell, found, Option.map_some, Option.getD_some]

theorem token_ofTokens : (ofTokens tokens)[place]?.map (·.token) = tokens.reverse[place]? := by
  induction tokens with
  | nil => rfl
  | cons token tokens ih =>
    rw [ofTokens, List.reverse_cons]
    rcases Nat.lt_trichotomy place tokens.length with hlt | rfl | hgt
    · rw [getElem?_add (by rwa [size_ofTokens]), ih,
        List.getElem?_append_left (by rwa [List.length_reverse])]
    · rw [← size_ofTokens, getElem?_add_size]
      simp
    · rw [Array.getElem?_eq_none (by simp; omega), List.getElem?_eq_none (by simp; omega)]
      rfl

theorem found_view_ofTokens (h : m.ctorIdx < n.ctorIdx) :
    ((ofTokens tokens).view token n).found m (tokens.length + 1) =
      (ofTokens (token :: tokens)).found m (tokens.length + 1) := by
  have htop : ((ofTokens tokens).view token n).found m ((ofTokens tokens).size + 1) = _ :=
    found_view_top h
  rwa [size_ofTokens] at htop

/-- What one search keeps, all searches keep. -/
theorem found_induction {P : List Token → Nonterminal → Nat → Ending → Prop}
    (hgrow : ∀ token tokens n place e, place ≤ tokens.length → P tokens n place e →
      P (token :: tokens) n place e)
    (hsearch : ∀ token tokens n,
      (∀ m place, ∀ e ∈ (((ofTokens tokens).view token n).found m place).ends,
        P (token :: tokens) m place e) →
      ∀ e ∈ (((ofTokens tokens).view token n).search n).ends,
        P (token :: tokens) n (tokens.length + 1) e)
    (tokens : List Token) (n : Nonterminal) (place : Nat) :
    ∀ e ∈ ((ofTokens tokens).found n place).ends, P tokens n place e := by
  induction tokens generalizing n place with
  | nil =>
    intro e he
    cases place <;> cases he
  | cons token tokens ih =>
    have hbelow : ∀ n place, place ≤ tokens.length →
        ∀ e ∈ ((ofTokens tokens).found n place).ends, P (token :: tokens) n place e :=
      fun n place hplace e he => hgrow token tokens n place e hplace (ih n place e he)
    have htop : ∀ n, ∀ e ∈ ((ofTokens (token :: tokens)).found n (tokens.length + 1)).ends,
        P (token :: tokens) n (tokens.length + 1) e := by
      -- A search sees the nonterminals before its own, so the induction is on their order.
      intro n
      induction hindex : n.ctorIdx using Nat.strongRecOn generalizing n with
      | ind index ihn =>
        intro e he
        rw [ofTokens, ← size_ofTokens, found_add_top] at he
        refine hsearch token tokens n (fun m place f hf => ?_) e he
        rcases mem_ends_view hf with ⟨hplace, hf⟩ | ⟨rfl, hearlier, hf⟩
        · rw [size_ofTokens] at hplace
          exact hbelow m place hplace f hf
        · rw [size_ofTokens] at hf ⊢
          exact ihn m.ctorIdx (hindex ▸ hearlier) m rfl f hf
    intro e he
    rcases Nat.lt_trichotomy place (tokens.length + 1) with hlt | rfl | hgt
    · rw [ofTokens, found_add_below (by simp; omega)] at he
      exact hbelow n place (by omega) e he
    · exact htop n e he
    · rw [ends_found_eq_nil (by simp; omega)] at he
      cases he

end Chart

end Calculator.Grammar
