import Calculator.Function.Builtins
import Calculator.Proofs.Hazard.Arithmetic

/-!
# How functions fail

Parameters that are not optional come first, so each of them has got something once the arguments
are bound. No function that is always there asks for anything else.
-/

namespace Calculator

variable {hazard : Hazard} {names : List String} {name other : String} {value : Value}

/-! ## Arguments -/

namespace Arguments

variable {arguments : Arguments}

/-- The parameter has got something. -/
def Binds (arguments : Arguments) (name : String) : Prop := arguments.all name ≠ []

theorem lookup_addTo (name other : String) (value : Value) (slots : List (String × List Value)) :
    (addTo other value slots).lookup name =
      if name = other then some ((slots.lookup other).getD [] ++ [value])
      else slots.lookup name := by
  induction slots with
  | nil =>
    by_cases h : name = other
    · simp [addTo, h]
    · simp [addTo, List.lookup_cons, beq_eq_false_iff_ne.mpr h, h]
  | cons slot slots ih =>
    obtain ⟨key, values⟩ := slot
    by_cases hkey : key = other
    · subst hkey
      rw [addTo, if_pos rfl]
      by_cases h : name = key
      · simp [h]
      · have hname : (name == key) = false := beq_eq_false_iff_ne.mpr h
        simp [List.lookup_cons, h, hname]
    · have hother : (other == key) = false := beq_eq_false_iff_ne.mpr (Ne.symm hkey)
      rw [addTo, if_neg hkey, List.lookup_cons, List.lookup_cons, ih, List.lookup_cons, hother]
      by_cases h : name = other
      · simp [h, hother]
      · simp [h]

theorem binds_bind (arguments : Arguments) (name : String) (value : Value) :
    (arguments.bind name value).Binds name := by
  simp [Binds, Arguments.all, Arguments.bind, lookup_addTo]

theorem Binds.bind (h : arguments.Binds name) (other : String) (value : Value) :
    (arguments.bind other value).Binds name := by
  by_cases hname : name = other
  · subst hname
    exact binds_bind arguments name value
  · simpa [Binds, Arguments.all, Arguments.bind, lookup_addTo, hname] using h

theorem Binds.required (h : arguments.Binds name) : ∃ value, arguments.required name = .ok value := by
  obtain ⟨value, values, hall⟩ := List.exists_cons_of_ne_nil h
  exact ⟨value, by simp [Arguments.required, first?, hall]⟩

end Arguments

namespace Signature

variable {signature : Signature} {site : Site} {values : List Value} {bound : Arguments}

/-- The names of the parameters that are not optional. -/
def needed (signature : Signature) : List String :=
  (signature.parameters.filter (!·.optional)).map (·.name)

/-- After an optional parameter, all are optional. -/
def IsOrderly (signature : Signature) : Prop :=
  signature.parameters.Pairwise fun earlier later => earlier.optional → later.optional

instance : Decidable signature.IsOrderly := inferInstanceAs (Decidable (List.Pairwise _ _))

theorem lt_countP {parameters : List Parameter} {parameter : Parameter} {k : Nat}
    (horderly : parameters.Pairwise fun earlier later => earlier.optional → later.optional)
    (hfound : parameters[k]? = some parameter) (hneeded : parameter.optional = false) :
    k < parameters.countP (!·.optional) := by
  induction parameters generalizing k with
  | nil => cases hfound
  | cons first others ih =>
    obtain ⟨hfirst, hothers⟩ := List.pairwise_cons.mp horderly
    cases k with
    | zero =>
      cases hfound
      rw [List.countP_cons_of_pos (by simpa using hneeded)]
      exact Nat.succ_pos _
    | succ k =>
      have hlater : others[k]? = some parameter := hfound
      have hbefore : first.optional = false := by
        have hlast := mt (hfirst parameter (List.mem_of_getElem? hlater))
        simpa [hneeded] using hlast
      rw [List.countP_cons_of_pos (by simpa using hbefore)]
      exact Nat.succ_lt_succ (ih hothers hlater)

/-- Each parameter up to the number of values has got something, and none loses what it had. -/
theorem bindFrom_binds {arguments : Arguments} {i : Nat}
    (h : signature.bindFrom site i arguments values = .ok bound) :
    (∀ name, arguments.Binds name → bound.Binds name) ∧
      ∀ k parameter, i ≤ k → k < i + values.length →
        signature.parameters[k]? = some parameter → bound.Binds parameter.name := by
  induction values generalizing i arguments with
  | nil =>
    cases h
    exact ⟨fun _ hname => hname, fun k _ hle hlt _ => absurd hlt (Nat.not_lt_of_le hle)⟩
  | cons value values ih =>
    rw [bindFrom] at h
    split at h
    case h_1 hnone =>
      cases h
      refine ⟨fun _ hname => hname, fun k parameter _ _ hfound => ?_⟩
      have hlength := (List.getElem?_eq_some_iff.mp hfound).1
      have hpast := List.getElem?_eq_none_iff.mp hnone
      omega
    case h_2 last hlast =>
      split at h
      case isFalse => cases h
      case isTrue =>
        obtain ⟨hkept, hlater⟩ := ih h
        refine ⟨fun name hname => hkept name (hname.bind _ _), fun k parameter hle hlt hfound => ?_⟩
        rcases Nat.eq_or_lt_of_le hle with rfl | hless
        -- The value is bound to the parameter at its own place, as there is one.
        · have hlength := (List.getElem?_eq_some_iff.mp hfound).1
          rw [parameter?, Nat.min_eq_left (by omega), hfound] at hlast
          cases hlast
          exact hkept _ (Arguments.binds_bind _ _ _)
        · exact hlater k parameter hless (by rw [List.length_cons] at hlt; omega) hfound

theorem bind_binds (horderly : signature.IsOrderly)
    (h : signature.bind site values = .ok bound) : ∀ name ∈ signature.needed, bound.Binds name := by
  intro name hname
  simp only [needed, List.mem_map, List.mem_filter, Bool.not_eq_true'] at hname
  obtain ⟨parameter, ⟨hmem, hneeded⟩, rfl⟩ := hname
  obtain ⟨k, hfound⟩ := List.getElem?_of_mem hmem
  have hleast := lt_countP horderly hfound hneeded
  unfold Signature.bind at h
  split at h
  · cases h
  · split at h
    · cases h
    case isFalse htakes =>
      simp only [takes, Bool.not_eq_true', Bool.not_eq_false, Bool.and_eq_true,
        decide_eq_true_eq] at htakes
      refine (bindFrom_binds h).2 k parameter (Nat.zero_le k) ?_ hfound
      rw [Nat.zero_add]
      exact Nat.lt_of_lt_of_le hleast htakes.1

end Signature

/-! ## Functions that ask for what they need -/

/-- All these parameters have got something. -/
def Call.Supplies (call : Call) (names : List String) : Prop :=
  ∀ name ∈ names, call.arguments.Binds name

/-- The function never fails in a hazardous way when these parameters have got something. -/
def SafeCalls (hazard : Hazard) (names : List String) (f : Call → Attempt Value) : Prop :=
  ∀ call, call.Supplies names → (f call).Safe hazard

namespace Behaviour

/-- What it asks for is among these names, and it never fails in a hazardous way by itself. -/
def Safe (hazard : Hazard) (names : List String) : Behaviour → Prop
  | compute f => SafeCalls hazard names f
  | consult f => ∀ world, SafeCalls hazard names (f world)
  | draw f => ∀ drawn, SafeCalls hazard names (f drawn)
  | help => True
  | run => "expression" ∈ names
  | runFile => "filename" ∈ names

end Behaviour

namespace Call

variable {call : Call}

theorem Supplies.required (h : call.Supplies names) (hname : name ∈ names) :
    (call.required name).Safe hazard := by
  obtain ⟨value, hvalue⟩ := (h name hname).required
  rw [Call.required, hvalue]
  exact .ok trivial

end Call

theorem World.sourceFor_safe (world : World) (site : Site) (path : Path) :
    (world.sourceFor site path).Safe hazard := by
  unfold World.sourceFor
  split
  · exact .ok trivial
  case h_2 problem _ => cases problem <;> exact .error rfl

namespace Builtin

/-! ### Mathematics -/

theorem toBool_safe : SafeCalls hazard ["input"] toBool :=
  fun _ h => .lift (h.required (by decide))

theorem toArray_safe : SafeCalls hazard ["input"] toArray :=
  fun _ h => .lift (h.required (by decide))

theorem toInt_safe : SafeCalls hazard ["input"] toInt := by
  intro call h
  refine .bind (h.required (by decide)) fun value _ => ?_
  split
  · exact .ok trivial
  · exact .fail rfl

theorem toFloatValue_safe : SafeCalls hazard ["input"] toFloatValue := by
  intro call h
  refine .bind (h.required (by decide)) fun value _ => .bind (.ofFault _) fun number? _ => ?_
  split
  · exact .ok trivial
  · exact .fail rfl

theorem extreme_safe (better : Value → Value → Bool) : SafeCalls hazard names (extreme better) := by
  intro call _
  unfold extreme
  dsimp only
  split
  · exact .fail rfl
  · split <;> exact .ok trivial

theorem toWhole_safe (whole : Float → Except Fault Int) :
    SafeCalls hazard ["n"] fun call => toWhole call whole := by
  intro call h
  refine .bind (h.required (by decide)) fun value _ => mapNumbers_safe (fun number => ?_) value
  split
  · refine .bind (.ofFault _) fun n _ => ?_
    split
    · exact .ok trivial
    · exact .fail rfl
  · exact .ok trivial

theorem round_safe : SafeCalls hazard ["n"] round := by
  intro call h
  unfold round
  split
  · split
    · exact .fail rfl
    · refine .bind (h.required (by decide)) fun value _ => mapNumbers_safe (fun number => ?_) value
      exact .bind (asFloat_safe number) fun _ _ => .lift (.ofFault _)
  · exact .fail rfl

theorem absolute_safe : SafeCalls hazard ["n"] absolute := by
  intro call h
  refine .bind (h.required (by decide)) fun value _ => mapNumbers_safe (fun number => ?_) value
  split
  · split
    · exact .fail rfl
    · exact .ok trivial
  · exact .ok trivial
  · exact .ok trivial

theorem floatFunction_safe (hn : "n" ∈ names) (f : Float → Float) :
    SafeCalls hazard names (floatFunction f) :=
  fun _ h => .bind (h.required hn) fun value _ => mapFloats_safe f value

theorem base_safe {call : Call} (h : call.Supplies ["n", "base"]) : (base call).Safe hazard := by
  refine .bind (h.required (by decide)) fun value _ => ?_
  split
  · exact .fail rfl
  · exact asFloat_safe value

/-- A function of floats that depends on a second argument. -/
theorem baseFunction_safe (f : Float → Float → Float) :
    SafeCalls hazard ["n", "base"] (fun call => do floatFunction (f (← base call)) call) :=
  fun call h => .bind (base_safe h) fun _ _ => floatFunction_safe (by decide) _ call h

/-! ### Collections -/

theorem input_safe {call : Call} (h : call.Supplies names) (hname : "input" ∈ names) :
    (input call).Safe hazard := h.required hname

theorem someItems_safe {call : Call} (h : call.Supplies ["input"]) :
    (someItems call).Safe hazard := by
  refine .bind (input_safe h (by decide)) fun value _ => ?_
  dsimp only
  split
  · exact .fail rfl
  · exact .ok trivial

/-- A function of the first argument alone. -/
theorem inputFunction_safe (f : Value → Value) :
    SafeCalls hazard ["input"] fun call => do return f (← input call) :=
  fun _ h => .lift (input_safe h (by decide))

theorem pop_safe : SafeCalls hazard ["input"] pop := fun _ h => .lift (someItems_safe h)

theorem dequeue_safe : SafeCalls hazard ["input"] dequeue := fun _ h => .lift (someItems_safe h)

theorem push_safe : SafeCalls hazard ["input", "element"] push :=
  fun _ h => .lift₂ (input_safe h (by decide)) (h.required (by decide))

theorem element_safe : SafeCalls hazard ["input", "index"] element := by
  intro call h
  refine .bind (input_safe h (by decide)) fun container _ =>
    .bind (h.required (by decide)) fun index _ => ?_
  split
  · exact Value.entryAt_safe _ index
  · exact Value.itemAt_safe _ index

theorem remove_safe : SafeCalls hazard ["input", "index"] remove := by
  intro call h
  refine .bind (input_safe h (by decide)) fun container _ =>
    .bind (h.required (by decide)) fun index _ => ?_
  split
  · exact .lift (Value.entryAt_safe _ index)
  · exact .lift (Value.placeOf_safe _ index)

theorem merge_safe : SafeCalls hazard names merge := by
  intro call _
  unfold merge
  dsimp only
  split <;> exact .ok trivial

/-! ### Strings -/

theorem textOf_safe {call : Call} (h : call.Supplies names) (hname : name ∈ names) :
    (textOf call name).Safe hazard :=
  .lift (h.required hname)

theorem contains_safe : SafeCalls hazard ["source", "s"] contains := by
  intro call h
  refine .bind (h.required (by decide)) fun source _ =>
    .bind (h.required (by decide)) fun sought _ => ?_
  split <;> exact .ok trivial

theorem strlen_safe : SafeCalls hazard ["s"] strlen :=
  fun _ h => .lift (textOf_safe h (by decide))

theorem mapText_safe (name : String) (f : String → String) :
    SafeCalls hazard [name] (mapText name f) :=
  fun _ h => .lift (textOf_safe h (List.mem_singleton_self name))

theorem upTo_safe (call : Call) (position limit : Nat) (value : Value) :
    (upTo call position limit value).Safe hazard := by
  unfold upTo
  split
  · split
    · exact .ok trivial
    · exact .fail rfl
  · exact .fail rfl

theorem substr_safe : SafeCalls hazard ["s", "start"] substr := by
  intro call h
  refine .bind (textOf_safe h (by decide)) fun s _ => .bind (h.required (by decide)) fun start _ =>
    .bind (upTo_safe _ _ _ start) fun place _ => ?_
  dsimp only
  split
  · exact .ok trivial
  · exact .lift (upTo_safe _ _ _ _)

theorem regex_safe : SafeCalls hazard ["pattern", "subject"] regex := by
  intro call h
  refine .bind (textOf_safe h (by decide)) fun pattern _ =>
    .bind (textOf_safe h (by decide)) fun subject _ => ?_
  dsimp only
  split
  · exact .fail rfl
  · exact .error rfl
  · split <;> exact .ok trivial

theorem decoded_safe (kind : String) (decode? : String → Option String) :
    SafeCalls hazard ["input"] (decoded kind decode?) := by
  intro call h
  refine .bind (textOf_safe h (by decide)) fun s _ => ?_
  split
  · exact .ok trivial
  · exact .fail rfl

/-! ### Chance and files -/

theorem choose_safe (drawn : Nat) : SafeCalls hazard names (choose drawn) := by
  intro call _
  unfold choose
  dsimp only
  split <;> exact .ok trivial

theorem bound_safe (call : Call) (position : Nat) (name : String) :
    (bound call position name).Safe hazard := by
  unfold bound
  split
  · exact .ok trivial
  · split
    · exact .ok trivial
    · exact .fail rfl

theorem rand_safe (drawn : Nat) : SafeCalls hazard names (rand drawn) := by
  intro call _
  refine .bind (bound_safe _ _ _) fun m _ => .bind (bound_safe _ _ _) fun n _ => ?_
  split <;> exact .ok trivial

theorem tail_safe (world : World) : SafeCalls hazard ["filename"] (tail world) := by
  intro call h
  refine .bind (h.required (by decide)) fun filename _ => ?_
  dsimp only
  split
  · exact .lift (world.sourceFor_safe _ _)
  · exact .fail rfl

/-! ### Tables -/

/-- The function needs nothing but what its signature makes sure of. -/
abbrev Provided (hazard : Hazard) (function : Function) : Prop :=
  function.behaviour.Safe hazard function.signature.needed

theorem mathFunctions_safe : ∀ function ∈ mathFunctions, Provided hazard function := by
  simp only [mathFunctions, List.forall_mem_cons]
  exact ⟨toBool_safe, toArray_safe, toInt_safe, toFloatValue_safe, extreme_safe _, extreme_safe _,
    toWhole_safe _, toWhole_safe _, round_safe, absolute_safe, floatFunction_safe (by decide) _,
    floatFunction_safe (by decide) _, baseFunction_safe logarithm, floatFunction_safe (by decide) _,
    baseFunction_safe root, List.forall_mem_nil _⟩

theorem angleFunction_safe (name : String) (f : Float → Float) (description : String) :
    Provided hazard (angleFunction name f description) :=
  floatFunction_safe (List.mem_singleton_self _) f

theorem angleFunctions_safe : ∀ function ∈ angleFunctions, Provided hazard function := by
  simp [angleFunctions, angleFunction_safe]

theorem collectionFunctions_safe :
    ∀ function ∈ collectionFunctions, Provided hazard function := by
  simp only [collectionFunctions, List.forall_mem_cons]
  exact ⟨inputFunction_safe _, inputFunction_safe _, pop_safe, push_safe, dequeue_safe, push_safe,
    remove_safe, element_safe, merge_safe, inputFunction_safe _, inputFunction_safe _,
    List.forall_mem_nil _⟩

theorem stringFunctions_safe : ∀ function ∈ stringFunctions, Provided hazard function := by
  simp only [stringFunctions, List.forall_mem_cons]
  exact ⟨contains_safe, fun _ _ => .ok trivial, strlen_safe, mapText_safe _ _, mapText_safe _ _,
    mapText_safe _ _, substr_safe, regex_safe, mapText_safe _ _, decoded_safe _ _,
    mapText_safe _ _, decoded_safe _ _, List.forall_mem_nil _⟩

theorem cryptographyFunctions_safe :
    ∀ function ∈ cryptographyFunctions, Provided hazard function := by
  simp only [cryptographyFunctions, List.forall_mem_cons]
  exact ⟨choose_safe, rand_safe, fun _ _ => .ok trivial, fun _ _ => .ok trivial,
    List.forall_mem_nil _⟩

theorem systemFunctions_safe : ∀ function ∈ systemFunctions, Provided hazard function := by
  simp only [systemFunctions, List.forall_mem_cons]
  exact ⟨fun _ _ _ => .ok trivial, tail_safe, List.forall_mem_nil _⟩

theorem engineFunctions_safe : ∀ function ∈ engineFunctions, Provided hazard function := by
  simp only [engineFunctions, List.forall_mem_cons]
  exact ⟨trivial, List.mem_singleton_self _, List.mem_singleton_self _, List.forall_mem_nil _⟩

end Builtin

theorem FunctionTable.builtin_safe :
    ∀ function ∈ builtin.functions, Builtin.Provided hazard function := by
  simp only [builtin, List.forall_mem_append]
  exact ⟨⟨⟨⟨⟨⟨Builtin.mathFunctions_safe, Builtin.angleFunctions_safe⟩,
    Builtin.collectionFunctions_safe⟩, Builtin.stringFunctions_safe⟩, Builtin.engineFunctions_safe⟩,
    Builtin.cryptographyFunctions_safe⟩, Builtin.systemFunctions_safe⟩

theorem FunctionTable.builtin_orderly :
    ∀ function ∈ builtin.functions, function.signature.IsOrderly := by
  decide +kernel

end Calculator
