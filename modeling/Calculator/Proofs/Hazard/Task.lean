import Calculator.Proofs.Hazard.Combination

/-!
# How tasks fail

A leaf comes to what its kind says, and a node knows what to do once the nodes below it have come to
what their roles say.
-/

namespace Calculator

open Grammar Evaluation Number

variable {hazard : Hazard} {site : Site} {rule : Rule} {meanings : List Meaning}

/-- The token has been left open. -/
def Grammar.Terminal.slip? : Terminal → Option Slip
  | .openLiteral => some .openLiteral
  | .openLine => some .openLine
  | _ => none

namespace Evaluation

variable {children : List Tree} {outcomes : List Outcome} {kind : Terminal}

/-! ## Literals -/

theorem integerLiteral_safe (site : Site)
    (h : (readInteger? (removeCommas site.text)).isSome) : (integerLiteral site).Safe hazard := by
  unfold integerLiteral
  split
  · split
    · exact .ok trivial
    · exact .fail rfl
  case h_2 hnone =>
    rw [hnone] at h
    cases h

theorem floatLiteral_safe (site : Site) : (floatLiteral site).Safe hazard := by
  unfold floatLiteral
  dsimp only
  split
  · exact .ok trivial
  · exact .fail rfl

theorem radixLiteral_safe (base : Nat) (site : Site) : (radixLiteral base site).Safe hazard := by
  unfold radixLiteral
  dsimp only
  split
  · exact .fail rfl
  · split <;> exact .ok trivial

theorem literal_avoids (hname : kind ≠ .identifier)
    (hnumber : kind = .int → (readInteger? (removeCommas site.text)).isSome)
    (hslip : ∀ slip ∈ kind.slip?, ¬hazard.Holds (.located site (.slip slip))) :
    (literal kind site).Avoids hazard fun outcome => outcome.meaning.role = kind.role := by
  have hvalue {attempt : Attempt Value} (h : attempt.Safe hazard) :
      Attempt.Avoids hazard (fun outcome => outcome.meaning.role = .value)
        (Outcome.ofValue <$> attempt) := by
    rw [← bind_pure_comp]
    exact .bind h fun v _ => .ok rfl
  unfold literal
  split
  case h_1 => exact hvalue (integerLiteral_safe site (hnumber rfl))
  case h_2 | h_3 => exact hvalue (floatLiteral_safe site)
  case h_4 | h_5 | h_6 => exact hvalue (radixLiteral_safe _ site)
  case h_7 | h_8 => exact .ok rfl
  case h_9 | h_10 => exact .failed (hslip _ rfl)
  case h_11 =>
    cases kind
    case identifier => exact absurd rfl hname
    all_goals
      first
      | contradiction
      | exact .ok rfl

/-! ## What is left to do -/

theorem refuseNames_safe : ∀ (trees : List Tree) (outcomes : List Outcome),
    (refuseNames trees outcomes).Safe hazard
  | tree :: trees, outcome :: outcomes => by
    unfold refuseNames
    split
    · exact .fail rfl
    · exact refuseNames_safe trees outcomes
  | [], _ | _ :: _, [] => .ok trivial

theorem checkNames_safe (rule : Rule) (children : List Tree) (outcomes : List Outcome) :
    (checkNames rule children outcomes).Safe hazard := by
  unfold checkNames
  split
  · exact .ok trivial
  · exact refuseNames_safe _ _

/-- What a node comes to once its task is done. -/
def Task.role : Task → Role
  | .finish outcome => outcome.meaning.role
  | _ => .value

/-- The roles of the nodes below, of which the first one may be a name. -/
def rolesIn (namesFirst : Bool) : List Tree → List Role
  | [] => []
  | tree :: trees =>
    (if (bareName namesFirst tree).isSome then .mark .identifier else tree.role) ::
      trees.map Tree.role

theorem rolesIn_false (trees : List Tree) : rolesIn false trees = trees.map Tree.role := by
  cases trees <;> rfl

/-- What the nodes below have come to plays their roles. -/
abbrev Plays (rule : Rule) (children : List Tree) (meanings : List Meaning) : Prop :=
  meanings.map Meaning.role = rolesIn (startsWithName rule) children

theorem fits_of_shape (hscript : rule ≠ .script) (hline : rule ≠ .line)
    (hnames : startsWithName rule = false) (hshape : Shape rule children)
    (hplays : Plays rule children meanings) : Fits rule meanings := by
  obtain ⟨n, hrule, alternative, hmem, h⟩ := (shape_iff hscript hline).mp hshape
  rw [Plays, hnames, rolesIn_false] at hplays
  have hroles : List.Forall₂ Eq (children.map Tree.role) (meanings.map Meaning.role) := by
    rw [hplays]
    exact List.forall₂_same.mpr fun _ _ => rfl
  rw [List.forall₂_map_left_iff, List.forall₂_map_right_iff] at hroles
  refine ⟨n, hrule, alternative, hmem, h.transfer (fun s tree meaning hmay hrole => ?_) hroles⟩
  rw [Symbol.Means, ← hrole]
  exact hmay.role_mem

/-- A name alone plays the role of a value. -/
theorem bareName_eq_none {tree : Tree} (h : tree.role ≠ .value) (namesFirst : Bool) :
    bareName namesFirst tree = none := by
  unfold bareName
  split
  · exact absurd rfl h
  · rfl

theorem argumentsOf_safe {inside : Meaning} (h : inside.role ∈ Nonterminal.arguments.roles)
    (text : String) : (argumentsOf site [inside, .mark .rpar text]).Safe hazard := by
  rcases Combination.inside_of_mem h with ⟨v, rfl⟩ | ⟨vs, rfl⟩
  · exact .ok trivial
  · exact .ok trivial

theorem call_avoids (hshape : Shape .call children)
    (hplays : Plays .call children (outcomes.map (·.meaning))) :
    (task site .call children outcomes).Avoids hazard (·.role = .value) := by
  obtain ⟨alternative, hmem, h⟩ := spelled_by .call rfl (by decide) hshape
  unfold task
  generalize outcomes.map Outcome.meaning = meanings at hplays
  simp only [Nonterminal.alternatives, List.mem_cons, List.not_mem_nil, or_false] at hmem
  rcases hmem with rfl | rfl
  · simp only [Spells.one_iff, Spells.nil_iff] at h
    obtain ⟨_, _, ⟨a, rfl⟩, ⟨_, _, ⟨b, rfl⟩, ⟨inside, _, hinside, ⟨_, _, ⟨c, rfl⟩, rfl, rfl⟩, rfl⟩,
      rfl⟩, rfl⟩ := h
    change _ = [Role.mark .identifier, .mark .lpar, inside.role, .mark .rpar] at hplays
    simp only [List.map_eq_cons_iff, List.map_eq_nil_iff, Meaning.role_eq_mark] at hplays
    obtain ⟨_, _, rfl, ⟨x, rfl⟩, _, _, rfl, ⟨y, rfl⟩, _, _, rfl, hrole, _, _, rfl, ⟨z, rfl⟩,
      rfl⟩ := hplays
    exact .bind (argumentsOf_safe (hrole ▸ hinside) z) fun _ _ => .ok rfl
  · simp only [Spells.one_iff, Spells.nil_iff] at h
    obtain ⟨_, _, ⟨a, rfl⟩, ⟨_, _, ⟨b, rfl⟩, ⟨_, _, ⟨c, rfl⟩, rfl, rfl⟩, rfl⟩, rfl⟩ := h
    change _ = [Role.mark .identifier, .mark .lpar, .mark .rpar] at hplays
    simp only [List.map_eq_cons_iff, List.map_eq_nil_iff, Meaning.role_eq_mark] at hplays
    obtain ⟨_, _, rfl, ⟨x, rfl⟩, _, _, rfl, ⟨y, rfl⟩, _, _, rfl, ⟨z, rfl⟩, rfl⟩ := hplays
    exact .ok rfl

theorem assignment_avoids (hshape : Shape .assignment children)
    (hplays : Plays .assignment children (outcomes.map (·.meaning))) :
    (task site .assignment children outcomes).Avoids hazard (·.role = .value) := by
  obtain ⟨alternative, hmem, h⟩ := spelled_by .assignment rfl (by decide) hshape
  unfold task
  generalize outcomes.map Outcome.meaning = meanings at hplays
  simp only [Nonterminal.alternatives, List.mem_cons, List.not_mem_nil, or_false] at hmem
  rcases hmem with rfl | rfl
  · simp only [Spells.one_iff, Spells.nil_iff] at h
    obtain ⟨_, _, ⟨a, rfl⟩, ⟨_, _, ⟨b, rfl⟩, ⟨v, _, hv, rfl, rfl⟩, rfl⟩, rfl⟩ := h
    replace hv := List.mem_singleton.mp hv
    change _ = [Role.mark .identifier, .mark .equal, v.role] at hplays
    simp only [hv, List.map_eq_cons_iff, List.map_eq_nil_iff, Meaning.role_eq_mark,
      Meaning.role_eq_value] at hplays
    obtain ⟨_, _, rfl, ⟨x, rfl⟩, _, _, rfl, ⟨y, rfl⟩, _, _, rfl, ⟨w, rfl⟩, rfl⟩ := hplays
    exact .ok rfl
  · simp only [Spells.one_iff, Spells.nil_iff] at h
    obtain ⟨target, _, htarget, ⟨_, _, ⟨b, rfl⟩, ⟨v, _, hv, rfl, rfl⟩, rfl⟩, rfl⟩ := h
    replace htarget := List.mem_singleton.mp htarget
    replace hv := List.mem_singleton.mp hv
    -- The first child is walked here, because it is no name.
    rw [Plays, rolesIn, bareName_eq_none (by simp [htarget]) _] at hplays
    change _ = [target.role, .mark .equal, v.role] at hplays
    simp only [htarget, hv, List.map_eq_cons_iff, List.map_eq_nil_iff, Meaning.role_eq_mark,
      Meaning.role_eq_value, Meaning.role_eq_target] at hplays
    obtain ⟨_, _, rfl, ⟨x, rfl⟩, _, _, rfl, ⟨y, rfl⟩, _, _, rfl, ⟨w, rfl⟩, rfl⟩ := hplays
    exact .ok rfl

theorem indexedTarget_avoids (hshape : Shape .indexedTarget children)
    (hplays : Plays .indexedTarget children (outcomes.map (·.meaning))) :
    (task site .indexedTarget children outcomes).Avoids hazard (·.role = .target) := by
  obtain ⟨alternative, hmem, h⟩ := spelled_by .indexedTarget rfl (by decide) hshape
  obtain rfl := List.mem_singleton.mp hmem
  unfold task
  generalize outcomes.map Outcome.meaning = meanings at hplays
  simp only [Spells.one_iff, Spells.nil_iff] at h
  obtain ⟨_, _, ⟨a, rfl⟩, ⟨_, _, ⟨b, rfl⟩, ⟨v, _, hv, ⟨_, _, ⟨c, rfl⟩, rfl, rfl⟩, rfl⟩, rfl⟩,
    rfl⟩ := h
  replace hv := List.mem_singleton.mp hv
  change _ = [Role.mark .identifier, .mark .lsqb, v.role, .mark .rsqb] at hplays
  simp only [hv, List.map_eq_cons_iff, List.map_eq_nil_iff, Meaning.role_eq_mark,
    Meaning.role_eq_value] at hplays
  obtain ⟨_, _, rfl, ⟨x, rfl⟩, _, _, rfl, ⟨y, rfl⟩, _, _, rfl, ⟨w, rfl⟩, _, _, rfl, ⟨z, rfl⟩,
    rfl⟩ := hplays
  exact .ok rfl

theorem currency_avoids (h : Fits .currency (outcomes.map (·.meaning))) :
    (task site .currency children outcomes).Avoids hazard (·.role = .value) := by
  obtain ⟨alternative, hmem, h⟩ := spelled_by .currency rfl (by decide) h
  unfold task
  generalize outcomes.map Outcome.meaning = meanings at h
  simp only [Nonterminal.alternatives, List.mem_cons, List.not_mem_nil, or_false] at hmem
  rcases hmem with rfl | rfl | rfl
  all_goals
    simp only [Spells.one_iff, Spells.nil_iff] at h
    obtain ⟨_, _, hsymbol, ⟨_, _, hvalue, rfl, rfl⟩, rfl⟩ := h
    obtain ⟨symbol, rfl⟩ := hsymbol.mark rfl
    obtain ⟨v, rfl⟩ := hvalue.value rfl
    exact .ok rfl

theorem entry_avoids (h : Fits .entry (outcomes.map (·.meaning))) :
    (task site .entry children outcomes).Avoids hazard (·.role = .entry) := by
  obtain ⟨alternative, hmem, h⟩ := spelled_by .entry rfl (by decide) h
  obtain rfl := List.mem_singleton.mp hmem
  unfold task
  generalize outcomes.map Outcome.meaning = meanings at h
  simp only [Spells.one_iff, Spells.nil_iff] at h
  obtain ⟨_, _, hkey, ⟨_, _, hcolon, ⟨_, _, hvalue, rfl, rfl⟩, rfl⟩, rfl⟩ := h
  obtain ⟨key, rfl⟩ := hkey.value rfl
  obtain ⟨colon, rfl⟩ := hcolon.mark rfl
  obtain ⟨v, rfl⟩ := hvalue.value rfl
  exact .ok rfl

theorem arguments_avoids (h : Fits .arguments (outcomes.map (·.meaning))) :
    (task site .arguments children outcomes).Avoids hazard (·.role = .values) := by
  obtain ⟨v, rest, hmeanings, hrest⟩ := h.first rfl
  unfold task
  rw [hmeanings]
  exact .bind (Combination.operands_safe rfl hrest v) fun _ _ => .ok rfl

theorem valued_avoids (hvalued : Combination.isValued rule)
    (h : Fits rule (outcomes.map (·.meaning))) :
    (task site rule children outcomes).Avoids hazard (·.role = .value) := by
  have hsafe : (Combination.value site rule (outcomes.map (·.meaning))).Safe hazard :=
    Combination.value_safe hvalued h
  unfold task
  cases rule
  case sum | product | power | shift | bitAnd | bitXor | bitOr | impliedProduct | comparison
      | conjunction | disjunction | prefixed | postfixed | indexed | group | array | object =>
    exact .bind hsafe fun _ _ => .ok rfl
  all_goals cases hvalued

/-- Nodes whose children are all walked, unless something is left open. -/
def isWalked (rule : Rule) : Bool :=
  !([.script, .line, .ternary, .definition, .decorator] : List Rule).contains rule

/-- A node finds all that it looks for, and comes to what its role says. -/
theorem task_avoids (hwalked : isWalked rule) (hslip : slip? rule = none)
    (hshape : Shape rule children) (hplays : Plays rule children (outcomes.map (·.meaning))) :
    (task site rule children outcomes).Avoids hazard (·.role = rule.role) := by
  by_cases hvalued : Combination.isValued rule
  · have hfits : Fits rule (outcomes.map (·.meaning)) := by
      refine fits_of_shape ?_ ?_ ?_ hshape hplays
      all_goals cases rule <;> first | decide | exact absurd hvalued (by decide)
    have hrole : rule.role = .value := by cases rule <;> first | rfl | cases hvalued
    rw [hrole]
    exact valued_avoids hvalued hfits
  · cases rule
    case call => exact call_avoids hshape hplays
    case assignment => exact assignment_avoids hshape hplays
    case indexedTarget => exact indexedTarget_avoids hshape hplays
    case currency =>
      exact currency_avoids (fits_of_shape (by decide) (by decide) rfl hshape hplays)
    case entry => exact entry_avoids (fits_of_shape (by decide) (by decide) rfl hshape hplays)
    case arguments =>
      exact arguments_avoids (fits_of_shape (by decide) (by decide) rfl hshape hplays)
    all_goals
      first
      | exact absurd rfl hvalued
      | exact absurd hwalked (by decide)
      | exact absurd hslip (by decide)

end Evaluation

end Calculator
