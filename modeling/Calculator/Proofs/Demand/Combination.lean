import Calculator.Evaluation.Walk
import Calculator.Proofs.Demand.Arithmetic

/-!
# Nodes under a demand

What a node is to do, worked out from what the nodes below have come to. A name that stands for
nothing may still be among them when a node is walked. The check above leaves such a name only to
help.
-/

namespace Calculator

open Grammar

variable {demand : Demand} {site : Site}

/-! ## Meanings and outcomes -/

def Meaning.Meets (demand : Demand) : Meaning → Prop
  | .value v => v.meets demand
  | .target index => index.meets demand
  | .values vs => AllMeet demand vs
  | .entry key v => key.meets demand ∧ v.meets demand
  | .mark _ _ | .decorator _ => True

def Outcome.Meets (demand : Demand) (outcome : Outcome) : Prop := outcome.meaning.Meets demand

/-- As demanded, or else nothing but a name. -/
def Outcome.Loose (demand : Demand) (outcome : Outcome) : Prop :=
  outcome.Meets demand ∨ outcome.name?.isSome

abbrev MeaningsMeet (demand : Demand) (meanings : List Meaning) : Prop :=
  ∀ meaning ∈ meanings, meaning.Meets demand

theorem meanings_meet {outcomes : List Outcome} (h : ∀ outcome ∈ outcomes, outcome.Meets demand) :
    MeaningsMeet demand (outcomes.map (·.meaning)) :=
  List.forall_mem_map.mpr h

theorem Outcome.Loose.meets {outcome : Outcome} (h : outcome.Loose demand)
    (hname : outcome.name? = none) : outcome.Meets demand := by
  rcases h with h | h
  · exact h
  · simp [hname] at h

/-- Where unresolved names are allowed, a bare name is as good as any other value. -/
theorem Outcome.Loose.meets_of_ne {outcome : Outcome} (h : outcome.Loose demand)
    (hdemand : demand ≠ .resolved) : outcome.Meets demand := by
  rcases h with h | h
  · exact h
  · obtain ⟨meaning, format⟩ := outcome
    cases meaning with
    | value v =>
      cases v with
      | name s => exact Value.meets_name.mpr hdemand
      | _ => cases h
    | _ => cases h

/-! ## Combinations -/

namespace Combination

theorem foldOperators_yields {left : Value} {meanings : List Meaning} (h : left.meets demand)
    (hall : MeaningsMeet demand meanings) :
    (foldOperators site left meanings).Yields (·.meets demand) := by
  fun_induction foldOperators site left meanings with
  | case1 => exact .ok h
  | case2 left kind text right rest operator hoperator ih =>
    simp only [MeaningsMeet, List.forall_mem_cons] at hall
    exact .bind (operator.apply_yields h hall.2.1) fun v hv => ih v hv hall.2.2
  | case3 | case4 => exact .fail

theorem foldProduct_yields {left : Value} {meanings : List Meaning} (h : left.meets demand)
    (hall : MeaningsMeet demand meanings) :
    (foldProduct site left meanings).Yields (·.meets demand) := by
  fun_induction foldProduct site left meanings with
  | case1 => exact .ok h
  | case2 left right rest ih =>
    rw [MeaningsMeet, List.forall_mem_cons] at hall
    exact .bind (Operator.apply_yields .multiply h hall.1) fun v hv => ih v hv hall.2
  | case3 => exact .fail

theorem foldComparisons_yields {left : Value} {meanings : List Meaning} (h : left.meets demand)
    (hall : MeaningsMeet demand meanings) :
    (foldComparisons site left meanings).Yields (·.meets demand) := by
  fun_induction foldComparisons site left meanings with
  | case1 => exact .ok h
  | case2 left kind text right rest comparator hcomparator ih =>
    simp only [MeaningsMeet, List.forall_mem_cons] at hall
    exact .bind (.any _) fun truth _ => ih truth (Value.meets_bool truth) hall.2.2
  | case3 | case4 => exact .fail

theorem operands_yields {meanings : List Meaning} (hall : MeaningsMeet demand meanings) :
    (operands site meanings).Yields (AllMeet demand) := by
  fun_induction operands site meanings with
  | case1 v =>
    simp only [MeaningsMeet, List.forall_mem_cons] at hall
    exact .ok (List.forall_mem_singleton.mpr hall.1)
  | case2 v kind text rest ih =>
    simp only [MeaningsMeet, List.forall_mem_cons] at hall
    exact .bind (ih hall.2.2) fun vs hvs => .ok (List.forall_mem_cons.mpr ⟨hall.1, hvs⟩)
  | case3 => exact .fail

theorem signed_yields {meanings : List Meaning} (hall : MeaningsMeet demand meanings) :
    (signed site meanings).Yields (·.meets demand) := by
  fun_induction signed site meanings with
  | case1 v => exact .ok (hall _ (List.mem_singleton_self _))
  | case2 text rest ih =>
    rw [MeaningsMeet, List.forall_mem_cons] at hall
    exact .bind (ih hall.2) fun v hv => Arithmetic.negate_yields v hv
  | case3 text rest ih =>
    rw [MeaningsMeet, List.forall_mem_cons] at hall
    exact .bind (ih hall.2) fun v hv => Arithmetic.complement_yields v hv
  | case4 => exact .fail

theorem factorials_yields {value : Value} {meanings : List Meaning} (h : value.meets demand) :
    (factorials site value meanings).Yields (·.meets demand) := by
  fun_induction factorials site value meanings with
  | case1 => exact .ok h
  | case2 value text rest ih =>
    exact .bind (Arithmetic.factorial_yields value h) fun v hv => ih v hv
  | case3 => exact .fail

theorem indexes_yields {value : Value} {meanings : List Meaning} (h : value.meets demand) :
    (indexes site value meanings).Yields (·.meets demand) := by
  fun_induction indexes site value meanings with
  | case1 => exact .ok h
  | case2 value _ index _ rest ih => exact .bind (Value.lookup_yields h index) fun v hv => ih v hv
  | case3 => exact .fail

theorem items_yields {meaning : Meaning} (h : meaning.Meets demand) :
    (items site meaning).Yields (AllMeet demand) := by
  cases meaning with
  | value v => exact .ok (List.forall_mem_singleton.mpr h)
  | values vs => exact .ok h
  | _ => exact .fail

theorem insertEntries_yields {entries : Entries} {meanings : List Meaning}
    (h : entries.Meet demand) (hall : MeaningsMeet demand meanings) :
    (insertEntries site entries meanings).Yields (Entries.Meet demand) := by
  fun_induction insertEntries site entries meanings with
  | case1 => exact .ok h
  | case2 entries text rest ih =>
    rw [MeaningsMeet, List.forall_mem_cons] at hall
    exact ih h hall.2
  | case3 entries key value rest ih =>
    rw [MeaningsMeet, List.forall_mem_cons] at hall
    exact ih (h.insert hall.1.1 hall.1.2) hall.2
  | case4 => exact .fail

theorem value_yields {rule : Rule} {meanings : List Meaning}
    (hall : MeaningsMeet demand meanings) :
    (value site rule meanings).Yields (·.meets demand) := by
  unfold value
  split
  case h_1 | h_2 | h_3 | h_4 | h_5 | h_6 | h_7 =>
    rw [MeaningsMeet, List.forall_mem_cons] at hall
    exact foldOperators_yields hall.1 hall.2
  case h_8 =>
    rw [MeaningsMeet, List.forall_mem_cons] at hall
    exact foldProduct_yields hall.1 hall.2
  case h_9 =>
    rw [MeaningsMeet, List.forall_mem_cons] at hall
    exact foldComparisons_yields hall.1 hall.2
  case h_10 | h_11 => exact .bind (.any _) fun _ _ => .ok (Value.meets_bool _)
  case h_12 => exact signed_yields hall
  case h_13 =>
    rw [MeaningsMeet, List.forall_mem_cons] at hall
    exact factorials_yields hall.1
  case h_14 =>
    rw [MeaningsMeet, List.forall_mem_cons] at hall
    exact indexes_yields hall.1
  case h_15 =>
    simp only [MeaningsMeet, List.forall_mem_cons] at hall
    exact .ok hall.2.1
  case h_16 => exact .ok (Value.meets_array.mpr (List.forall_mem_nil _))
  case h_17 =>
    simp only [MeaningsMeet, List.forall_mem_cons] at hall
    exact .array (items_yields hall.2.1)
  case h_18 =>
    rw [MeaningsMeet, List.forall_mem_cons] at hall
    exact .bind (insertEntries_yields (.nil demand) hall.2) fun entries hentries =>
      .ok (Value.meets_object.mpr hentries)
  case h_19 => exact .fail

end Combination

/-! ## Literals -/

namespace Evaluation

theorem integerLiteral_yields : (integerLiteral site).Yields (·.meets demand) := by
  unfold integerLiteral
  split
  · split
    case isTrue hn => exact .ok (Value.meets_int.mpr fun _ => hn)
    case isFalse => exact .fail
  · exact .fail

theorem floatLiteral_yields : (floatLiteral site).Yields (·.meets demand) := by
  unfold floatLiteral
  dsimp only
  split
  · exact .ok rfl
  · exact .fail

theorem radixLiteral_yields (base : Nat) : (radixLiteral base site).Yields (·.meets demand) := by
  unfold radixLiteral
  dsimp only
  split
  · exact .fail
  case isFalse hword =>
    simp only [wordSize, Nat.not_le] at hword
    split
    case isTrue hmax =>
      refine .ok (Value.meets_int.mpr fun _ => inRange_iff.mpr ?_)
      simp only [intMax, wordSize] at hmax ⊢
      omega
    case isFalse hmax =>
      refine .ok (Value.meets_int.mpr fun _ => inRange_iff.mpr ?_)
      simp only [intMax] at hmax
      omega

theorem literal_yields (kind : Terminal) : (literal kind site).Yields (Outcome.Meets demand) := by
  have hvalue {attempt : Attempt Value} (h : attempt.Yields (·.meets demand)) :
      Attempt.Yields (Outcome.ofValue <$> attempt) (Outcome.Meets demand) := by
    rw [← bind_pure_comp]
    exact .bind h fun v hv => .ok hv
  unfold literal
  split
  case h_1 => exact hvalue integerLiteral_yields
  case h_2 | h_3 => exact hvalue floatLiteral_yields
  case h_4 | h_5 | h_6 => exact hvalue (radixLiteral_yields _)
  case h_7 | h_8 => exact .ok rfl
  case h_9 | h_10 => exact .fail
  case h_11 => exact .ok trivial

/-! ## What is left to do -/

theorem refuseNames_meets {trees : List Tree} {outcomes : List Outcome}
    (hlength : outcomes.length = trees.length)
    (hloose : ∀ outcome ∈ outcomes, outcome.Loose demand)
    (h : refuseNames trees outcomes = .ok ()) :
    ∀ outcome ∈ outcomes, outcome.Meets demand := by
  induction outcomes generalizing trees with
  | nil => exact List.forall_mem_nil _
  | cons outcome outcomes ih =>
    obtain _ | ⟨tree, trees⟩ := trees
    · cases hlength
    rw [refuseNames] at h
    rw [List.forall_mem_cons] at hloose ⊢
    split at h
    · cases h
    case h_2 hname =>
      exact ⟨hloose.1.meets hname, ih (Nat.succ.inj hlength) hloose.2 h⟩

/-- Values that a function may be called with. Only help takes names that stand for nothing. -/
def MayTake (demand : Demand) (name : String) (arguments : List Value) : Prop :=
  (demand = .resolved ∧ name = "help") ∨ AllMeet demand arguments

def Task.Meets (demand : Demand) : Task → Prop
  | .finish outcome => outcome.Meets demand
  | .assign _ v => v.meets demand
  | .assignIndexed _ index v => index.meets demand ∧ v.meets demand
  | .call name arguments => MayTake demand name arguments

theorem argumentsOf_yields {meanings : List Meaning} (hall : MeaningsMeet demand meanings) :
    (argumentsOf site meanings).Yields (AllMeet demand) := by
  unfold argumentsOf
  split
  · exact .ok (List.forall_mem_nil _)
  · rw [MeaningsMeet, List.forall_mem_cons] at hall
    exact Combination.items_yields hall.1
  · exact .fail

theorem task_yields {rule : Rule} {children : List Tree} {outcomes : List Outcome}
    (h : ∀ outcome ∈ outcomes, outcome.Meets demand) :
    (task site rule children outcomes).Yields (Task.Meets demand) := by
  have hall := meanings_meet h
  unfold task
  dsimp only
  split
  case h_1 v heq =>
    simp only [heq, MeaningsMeet, List.forall_mem_cons] at hall
    exact .ok hall.2.1
  case h_2 =>
    exact .bind (Combination.operands_yields hall) fun vs hvs => .ok hvs
  case h_3 key _ _ v heq =>
    simp only [heq, MeaningsMeet, List.forall_mem_cons] at hall
    exact .ok ⟨hall.1, hall.2.2.1⟩
  case h_4 index _ _ heq =>
    simp only [heq, MeaningsMeet, List.forall_mem_cons] at hall
    exact .ok hall.2.2.1
  case h_5 v heq =>
    simp only [heq, MeaningsMeet, List.forall_mem_cons] at hall
    exact .ok hall.2.2.1
  case h_6 index _ _ v heq =>
    simp only [heq, MeaningsMeet, List.forall_mem_cons] at hall
    exact .ok ⟨hall.1, hall.2.2.1⟩
  case h_7 rest heq =>
    simp only [heq, MeaningsMeet, List.forall_mem_cons] at hall
    exact .bind (argumentsOf_yields hall.2.2) fun arguments harguments => .ok (.inr harguments)
  case h_8 =>
    exact .bind (Combination.value_yields hall) fun v hv => .ok hv

/-- No check is made of what help is called with. -/
theorem task_yields_of_help {rule : Rule} {children : List Tree} (h : asksForHelp rule children)
    (outcomes : List Outcome) :
    (task site rule children outcomes).Yields (Task.Meets .resolved) := by
  simp only [asksForHelp, Bool.and_eq_true, decide_eq_true_iff] at h
  obtain ⟨rfl, h⟩ := h
  have hname : firstName children = "help" := by
    cases children with
    | nil => cases h
    | cons tree trees => simpa [firstName] using h
  unfold task
  dsimp only
  split
  case h_7 => exact .bind (.any _) fun _ _ => .ok (.inl ⟨rfl, hname⟩)
  case h_8 => exact .bind (.fail : Attempt.Yields _ fun _ => False) fun _ hno => hno.elim
  all_goals contradiction

theorem task_yields_of_check {rule : Rule} {children : List Tree} {outcomes : List Outcome}
    (hlength : outcomes.length = children.length)
    (hloose : ∀ outcome ∈ outcomes, outcome.Loose demand)
    (h : checkNames rule children outcomes = .ok ()) :
    (task site rule children outcomes).Yields (Task.Meets demand) := by
  by_cases hdemand : demand = .resolved
  · subst hdemand
    unfold checkNames at h
    split at h
    case isTrue hhelp => exact task_yields_of_help hhelp outcomes
    case isFalse => exact task_yields (refuseNames_meets hlength hloose h)
  · exact task_yields fun outcome houtcome => (hloose outcome houtcome).meets_of_ne hdemand

end Evaluation

end Calculator
