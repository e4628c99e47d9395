import Calculator.Function.Builtins
import Calculator.Proofs.Demand.Arithmetic

/-!
# Functions under a demand

A function that is called with values that meet a demand answers with one that meets it. Of those
that are always there, only six can give integers of more than sixty-four bits.
-/

namespace Calculator

variable {demand : Demand}

/-! ## Calls -/

def Arguments.Meet (demand : Demand) (arguments : Arguments) : Prop :=
  ∀ slot ∈ arguments.slots, AllMeet demand slot.2

def Call.Meets (demand : Demand) (call : Call) : Prop := call.arguments.Meet demand

namespace Arguments

variable {arguments : Arguments} {name : String} {value : Value}

theorem openSlot_meet {slots : List (String × List Value)}
    (h : ∀ slot ∈ slots, AllMeet demand slot.2) (name : String) :
    ∀ slot ∈ openSlot slots name, AllMeet demand slot.2 := by
  unfold openSlot
  split
  · exact h
  · rw [List.forall_mem_append]
    exact ⟨h, List.forall_mem_singleton.mpr (List.forall_mem_nil _)⟩

theorem addTo_meet {slots : List (String × List Value)}
    (h : ∀ slot ∈ slots, AllMeet demand slot.2) (hvalue : value.meets demand) :
    ∀ slot ∈ addTo name value slots, AllMeet demand slot.2 := by
  induction slots with
  | nil => exact List.forall_mem_singleton.mpr (List.forall_mem_singleton.mpr hvalue)
  | cons slot slots ih =>
    rw [List.forall_mem_cons] at h
    rw [addTo]
    split <;> rw [List.forall_mem_cons]
    · exact ⟨List.forall_mem_append.mpr ⟨h.1, List.forall_mem_singleton.mpr hvalue⟩, h.2⟩
    · exact ⟨h.1, ih h.2⟩

theorem Meet.bind (h : arguments.Meet demand) (name : String) (hvalue : value.meets demand) :
    (arguments.bind name value).Meet demand :=
  addTo_meet h hvalue

theorem Meet.all (h : arguments.Meet demand) (name : String) :
    AllMeet demand (arguments.all name) := by
  unfold Arguments.all
  cases hfound : arguments.slots.lookup name with
  | none => exact List.forall_mem_nil _
  | some values =>
    obtain ⟨before, after, hslots, -⟩ := List.lookup_eq_some_iff.mp hfound
    exact h (name, values) (hslots ▸ List.mem_append_right _ List.mem_cons_self)

theorem Meet.required (h : arguments.Meet demand) (name : String) :
    (arguments.required name).Yields (·.meets demand) := by
  unfold Arguments.required
  split
  case h_1 value hvalue => exact .ok (h.all name value (List.mem_of_head? hvalue))
  case h_2 => exact .error

end Arguments

namespace Signature

variable {site : Site} {signature : Signature}

theorem bindFrom_yields {values : List Value} (h : AllMeet demand values) (i : Nat)
    {arguments : Arguments} (harguments : arguments.Meet demand) :
    (signature.bindFrom site i arguments values).Yields (Arguments.Meet demand) := by
  induction values generalizing i arguments with
  | nil => exact .ok harguments
  | cons value values ih =>
    rw [AllMeet, List.forall_mem_cons] at h
    rw [bindFrom]
    split
    · exact .ok harguments
    · split
      · exact ih h.2 (i + 1) (harguments.bind _ h.1)
      · exact .fail

theorem bind_yields {values : List Value} (h : AllMeet demand values) :
    (signature.bind site values).Yields (Arguments.Meet demand) := by
  unfold Signature.bind
  split
  · exact .fail
  · split
    · exact .fail
    · apply bindFrom_yields h
      -- Slots are opened one after the other, and nothing is in them yet.
      refine List.foldlRecOn
        (motive := fun slots : List (String × List Value) => ∀ slot ∈ slots, AllMeet demand slot.2)
        signature.parameters _ (List.forall_mem_nil _) ?_
      intro slots hslots parameter _
      exact Arguments.openSlot_meet hslots parameter.name

end Signature

/-! ## Functions that keep to a demand -/

def KeepsCalls (demand : Demand) (f : Call → Attempt Value) : Prop :=
  ∀ call, call.Meets demand → (f call).Yields (·.meets demand)

namespace Behaviour

/-- Scripts inside of scripts are not looked at here. -/
def Keeps (demand : Demand) : Behaviour → Prop
  | compute f => KeepsCalls demand f
  | consult f => ∀ world, KeepsCalls demand (f world)
  | draw f => ∀ drawn, KeepsCalls demand (f drawn)
  | help | run | runFile => True

end Behaviour

/-- The function can give an integer of more than sixty-four bits. -/
def Function.isUnbounded (function : Function) : Bool :=
  ["int", "rand", "len", "strlen", "keys", "time"].contains function.name

namespace Builtin

theorem required_yields {call : Call} (h : call.Meets demand) (name : String) :
    (call.required name).Yields (·.meets demand) :=
  Arguments.Meet.required h name

/-! ### Mathematics -/

theorem toBool_keeps : KeepsCalls demand toBool :=
  fun _ _ => .bind (.any _) fun _ _ => .ok (Value.meets_bool _)

theorem toArray_keeps : KeepsCalls demand toArray :=
  fun _ h => .bind (required_yields h _) fun _ hvalue =>
    .ok (Value.meets_array.mpr (Value.items_meet hvalue))

theorem toInt_keeps (hdemand : demand ≠ .inRange) : KeepsCalls demand toInt := by
  intro call h
  refine .bind (.any _) fun value _ => ?_
  split
  · exact .ok (Value.meets_int.mpr fun h => absurd h hdemand)
  · exact .fail

theorem toFloatValue_keeps : KeepsCalls demand toFloatValue := by
  intro call _
  refine .bind (.any _) fun value _ => .bind (.any _) fun number? _ => ?_
  split
  · exact .ok (Value.meets_float _)
  · exact .fail

mutual

theorem scalars_meet : (value : Value) → value.meets demand → AllMeet demand (scalars value)
  | .array items, h => scalarsIn_meet items (Value.meets_array.mp h)
  | .object entries, h => scalarsAmong_meet entries (Value.meets_object.mp h).values
  | .none, h | .bool _, h | .int _, h | .float _, h | .string _, h | .name _, h =>
    List.forall_mem_singleton.mpr h

theorem scalarsIn_meet : (items : List Value) → AllMeet demand items →
    AllMeet demand (scalarsIn items)
  | [], h => h
  | item :: items, h => by
    rw [AllMeet, List.forall_mem_cons] at h
    exact List.forall_mem_append.mpr ⟨scalars_meet item h.1, scalarsIn_meet items h.2⟩

theorem scalarsAmong_meet : (entries : Entries) → (∀ entry ∈ entries, entry.2.meets demand) →
    AllMeet demand (scalarsAmong entries)
  | [], _ => List.forall_mem_nil _
  | (_, value) :: entries, h => by
    obtain ⟨hvalue, hentries⟩ := List.forall_mem_cons.mp h
    exact List.forall_mem_append.mpr ⟨scalars_meet value hvalue, scalarsAmong_meet entries hentries⟩

end

theorem pick_mem (better : Value → Value → Bool) (first : Value) (others : List Value) :
    pick better first others ∈ first :: others := by
  induction others generalizing first with
  | nil => exact List.mem_singleton_self first
  | cons value others ih =>
    have h := ih (if better value first then value else first)
    rw [List.mem_cons] at h
    change pick better (if better value first then value else first) others ∈ _
    rcases h with h | h
    · rw [h]
      split <;> simp
    · exact List.mem_cons_of_mem _ (List.mem_cons_of_mem _ h)

theorem extreme_keeps (better : Value → Value → Bool) : KeepsCalls demand (extreme better) := by
  intro call h
  have hnumbers : AllMeet demand ((scalarsIn (call.all "n")).filter (!isNaN ·)) :=
    fun value hvalue =>
      scalarsIn_meet _ (Arguments.Meet.all h "n") value (List.mem_filter.mp hvalue).1
  unfold extreme
  dsimp only
  split
  · exact .fail
  · split
    case h_1 => exact .ok (Value.meets_float _)
    case h_2 first others heq =>
      rw [heq] at hnumbers
      exact .ok (hnumbers _ (pick_mem better first others))

theorem toWhole_keeps (whole : Float → Except Fault Int) :
    KeepsCalls demand fun call => toWhole call whole := by
  intro call h
  refine .bind (required_yields h _) fun value hvalue => mapNumbers_yields ?_ value hvalue
  intro number _ hnumber
  dsimp only
  split
  · refine .bind (.any _) fun n _ => ?_
    split
    case isTrue hn => exact .ok (Value.meets_int.mpr fun _ => hn)
    case isFalse => exact .fail
  · exact .ok hnumber

theorem round_keeps : KeepsCalls demand round := by
  intro call h
  unfold round
  split
  · split
    · exact .fail
    · refine .bind (required_yields h _) fun value hvalue => mapNumbers_yields ?_ value hvalue
      intro number _ _
      exact .bind (.any _) fun _ _ => .bind (.any _) fun _ _ => .ok (Value.meets_float _)
  · exact .fail

/-- The smallest integer has no absolute value in range and is refused. -/
theorem absolute_keeps : KeepsCalls demand absolute := by
  intro call h
  refine .bind (required_yields h _) fun value hvalue => mapNumbers_yields ?_ value hvalue
  intro number _ hnumber
  dsimp only
  split
  case h_1 n =>
    split
    case isTrue => exact .fail
    case isFalse hn =>
      refine .ok (Value.meets_int.mpr fun hdemand => ?_)
      have hrange := Value.meets_int.mp hnumber hdemand
      rw [inRange_iff] at hrange ⊢
      rw [intMin] at hn
      omega
  case h_2 => exact .ok (Value.meets_float _)
  case h_3 => exact .ok hnumber

theorem floatFunction_keeps (f : Float → Float) : KeepsCalls demand (floatFunction f) :=
  fun _ h => .bind (required_yields h _) fun _ hvalue => mapFloats_yields f hvalue

/-- A function of floats that depends on a second argument. -/
theorem baseFunction_keeps (f : Float → Float → Float) :
    KeepsCalls demand (fun call => do floatFunction (f (← base call)) call) :=
  fun call h => .bind (.any _) fun _ _ => floatFunction_keeps _ call h

/-! ### Collections -/

theorem len_keeps (hdemand : demand ≠ .inRange) : KeepsCalls demand len :=
  fun _ _ => .bind (.any _) fun _ _ => .ok (Value.meets_int.mpr fun h => absurd h hdemand)

theorem isEmpty_keeps : KeepsCalls demand isEmpty :=
  fun _ _ => .bind (.any _) fun _ _ => .ok (Value.meets_bool _)

theorem input_yields {call : Call} (h : call.Meets demand) :
    (input call).Yields (·.meets demand) := required_yields h _

theorem someItems_yields {call : Call} (h : call.Meets demand) :
    (someItems call).Yields (AllMeet demand) := by
  refine .bind (input_yields h) fun value hvalue => ?_
  dsimp only
  split
  · exact .fail
  · exact .ok (Value.items_meet hvalue)

theorem pop_keeps : KeepsCalls demand pop :=
  fun _ h => .bind (someItems_yields h) fun _ hitems =>
    .ok (Value.meets_array.mpr fun item hitem =>
      hitems item ((List.dropLast_sublist _).subset hitem))

theorem dequeue_keeps : KeepsCalls demand dequeue :=
  fun _ h => .bind (someItems_yields h) fun _ hitems =>
    .ok (Value.meets_array.mpr fun item hitem => hitems item (List.mem_of_mem_drop hitem))

theorem push_keeps : KeepsCalls demand push :=
  fun _ h => .bind (input_yields h) fun _ hvalue =>
    .bind (required_yields h _) fun _ helement =>
      .ok (Value.meets_array.mpr (List.forall_mem_append.mpr
        ⟨Value.items_meet hvalue, List.forall_mem_singleton.mpr helement⟩))

theorem element_keeps : KeepsCalls demand element := by
  intro call h
  refine .bind (input_yields h) fun container hcontainer => .bind (.any _) fun index _ => ?_
  split
  · exact Value.entryAt_yields (Value.meets_object.mp hcontainer) index
  · exact Value.itemAt_yields (Value.items_meet hcontainer) index

theorem remove_keeps : KeepsCalls demand remove := by
  intro call h
  refine .bind (input_yields h) fun container hcontainer => .bind (.any _) fun index _ => ?_
  split
  · exact .bind (.any _) fun _ _ =>
      .ok (Value.meets_object.mpr ((Value.meets_object.mp hcontainer).erase index))
  · exact .bind (.any _) fun place _ => .ok (Value.meets_array.mpr fun item hitem =>
      Value.items_meet hcontainer item (List.mem_of_mem_eraseIdx hitem))

theorem merge_keeps : KeepsCalls demand merge := by
  intro call h
  have hinputs : AllMeet demand (call.all "input") := Arguments.Meet.all h "input"
  unfold merge
  dsimp only
  split
  case isTrue hobjects =>
    refine .ok (Value.meets_object.mpr ?_)
    refine List.foldlRecOn (motive := Entries.Meet demand) _ _ (.nil demand) ?_
    intro entries hentries value hvalue
    have hobject := List.all_eq_true.mp hobjects value hvalue
    cases value with
    | object others =>
      have hothers := Value.meets_object.mp (hinputs _ hvalue)
      exact hentries.insertAll hothers.keys hothers.values
    | _ => cases hobject
  case isFalse =>
    refine .ok (Value.meets_array.mpr fun item hitem => ?_)
    obtain ⟨value, hvalue, hitem⟩ := List.mem_flatMap.mp hitem
    exact Value.items_meet (hinputs value hvalue) item hitem

theorem keys_keeps (hdemand : demand ≠ .inRange) : KeepsCalls demand keys :=
  fun _ h => .bind (input_yields h) fun _ hvalue => .ok (Value.meets_array.mpr
    (List.forall_mem_map.mpr (Value.entries_meet hdemand hvalue)))

theorem values_keeps : KeepsCalls demand values :=
  fun _ h => .bind (input_yields h) fun _ hvalue =>
    .ok (Value.meets_array.mpr (Value.items_meet hvalue))

/-! ### Strings and digests -/

theorem contains_keeps : KeepsCalls demand contains := by
  intro call _
  refine .bind (.any _) fun source _ => .bind (.any _) fun sought _ => ?_
  split <;> exact .ok (Value.meets_bool _)

theorem strlen_keeps (hdemand : demand ≠ .inRange) : KeepsCalls demand strlen :=
  fun _ _ => .bind (.any _) fun _ _ => .ok (Value.meets_int.mpr fun h => absurd h hdemand)

theorem mapText_keeps (name : String) (f : String → String) : KeepsCalls demand (mapText name f) :=
  fun _ _ => .bind (.any _) fun _ _ => .ok (Value.meets_string _)

theorem substr_keeps : KeepsCalls demand substr := by
  intro call _
  refine .bind (.any _) fun s _ => .bind (.any _) fun start _ => .bind (.any _) fun place _ => ?_
  dsimp only
  split
  · exact .ok (Value.meets_string _)
  · exact .bind (.any _) fun length _ => .ok (Value.meets_string _)

theorem captured_meets (text : Array Char) (found : Pattern.Found) (captures : Nat) (group : Int) :
    (captured text found captures group).meets demand := by
  unfold captured
  split
  · exact Value.meets_bool _
  · split
    · exact Value.meets_string _
    · exact Value.meets_bool _

theorem regex_keeps : KeepsCalls demand regex := by
  intro call _
  refine .bind (.any _) fun pattern _ => .bind (.any _) fun subject _ => ?_
  dsimp only
  split
  · exact .fail
  · exact .error
  · split
    · exact .ok (captured_meets _ _ _ _)
    · exact .ok (Value.meets_bool _)

theorem decoded_keeps (kind : String) (decode? : String → Option String) :
    KeepsCalls demand (decoded kind decode?) := by
  intro call _
  refine .bind (.any _) fun s _ => ?_
  split
  · exact .ok (Value.meets_string _)
  · exact .fail

theorem choose_keeps (drawn : Nat) : KeepsCalls demand (choose drawn) := by
  intro call h
  unfold choose
  dsimp only
  split
  case h_1 value hvalue =>
    exact .ok (Arguments.Meet.all h "option" value (List.mem_of_getElem? hvalue))
  case h_2 => exact .ok rfl

theorem rand_keeps (hdemand : demand ≠ .inRange) (drawn : Nat) :
    KeepsCalls demand (rand drawn) := by
  intro call _
  refine .bind (.any _) fun m _ => .bind (.any _) fun n _ => ?_
  split
  · exact .ok (Value.meets_float _)
  · exact .ok (Value.meets_int.mpr fun h => absurd h hdemand)
  · exact .ok (Value.meets_int.mpr fun h => absurd h hdemand)

/-! ### Clock and files -/

theorem time_keeps (hdemand : demand ≠ .inRange) (world : World) :
    KeepsCalls demand (time world) :=
  fun _ _ => .ok (Value.meets_int.mpr fun h => absurd h hdemand)

theorem tail_keeps (world : World) : KeepsCalls demand (tail world) := by
  intro call _
  refine .bind (.any _) fun filename _ => ?_
  dsimp only
  split
  · exact .bind (.any _) fun source _ => .ok (Value.meets_string _)
  · exact .fail

/-! ### Tables -/

/-- The demand lets the function give any integer, or it gives none out of range. -/
abbrev Tame (demand : Demand) (function : Function) : Prop :=
  demand = .inRange → function.isUnbounded = false

theorem Tame.ne_inRange {function : Function} (h : Tame demand function)
    (hunbounded : function.isUnbounded = true) : demand ≠ .inRange := by
  intro hdemand
  rw [h hdemand] at hunbounded
  cases hunbounded

theorem mathFunctions_keep :
    ∀ function ∈ mathFunctions, Tame demand function → function.behaviour.Keeps demand := by
  simp only [mathFunctions, List.forall_mem_cons]
  exact ⟨fun _ => toBool_keeps, fun _ => toArray_keeps,
    fun h => toInt_keeps (h.ne_inRange (by decide)), fun _ => toFloatValue_keeps,
    fun _ => extreme_keeps _, fun _ => extreme_keeps _, fun _ => toWhole_keeps _,
    fun _ => toWhole_keeps _, fun _ => round_keeps, fun _ => absolute_keeps,
    fun _ => floatFunction_keeps _, fun _ => floatFunction_keeps _,
    fun _ => baseFunction_keeps logarithm, fun _ => floatFunction_keeps _,
    fun _ => baseFunction_keeps root, List.forall_mem_nil _⟩

theorem angleFunctions_keep :
    ∀ function ∈ angleFunctions, function.behaviour.Keeps demand := by
  simp only [angleFunctions, List.forall_mem_cons]
  exact ⟨floatFunction_keeps _, floatFunction_keeps _, floatFunction_keeps _,
    floatFunction_keeps _, floatFunction_keeps _, floatFunction_keeps _, floatFunction_keeps _,
    floatFunction_keeps _, floatFunction_keeps _, floatFunction_keeps _, floatFunction_keeps _,
    List.forall_mem_nil _⟩

theorem collectionFunctions_keep :
    ∀ function ∈ collectionFunctions, Tame demand function → function.behaviour.Keeps demand := by
  simp only [collectionFunctions, List.forall_mem_cons]
  exact ⟨fun h => len_keeps (h.ne_inRange (by decide)), fun _ => isEmpty_keeps,
    fun _ => pop_keeps, fun _ => push_keeps, fun _ => dequeue_keeps, fun _ => push_keeps,
    fun _ => remove_keeps, fun _ => element_keeps, fun _ => merge_keeps,
    fun h => keys_keeps (h.ne_inRange (by decide)), fun _ => values_keeps, List.forall_mem_nil _⟩

theorem stringFunctions_keep :
    ∀ function ∈ stringFunctions, Tame demand function → function.behaviour.Keeps demand := by
  simp only [stringFunctions, List.forall_mem_cons]
  exact ⟨fun _ => contains_keeps, fun _ _ _ => .ok (Value.meets_string _),
    fun h => strlen_keeps (h.ne_inRange (by decide)), fun _ => mapText_keeps _ _,
    fun _ => mapText_keeps _ _, fun _ => mapText_keeps _ _, fun _ => substr_keeps,
    fun _ => regex_keeps, fun _ => mapText_keeps _ _, fun _ => decoded_keeps _ _,
    fun _ => mapText_keeps _ _, fun _ => decoded_keeps _ _, List.forall_mem_nil _⟩

theorem cryptographyFunctions_keep :
    ∀ function ∈ cryptographyFunctions, Tame demand function →
      function.behaviour.Keeps demand := by
  simp only [cryptographyFunctions, List.forall_mem_cons]
  exact ⟨fun _ => choose_keeps, fun h => rand_keeps (h.ne_inRange (by decide)),
    fun _ _ _ => .ok (Value.meets_string _), fun _ _ _ => .ok (Value.meets_string _),
    List.forall_mem_nil _⟩

theorem systemFunctions_keep :
    ∀ function ∈ systemFunctions, Tame demand function → function.behaviour.Keeps demand := by
  simp only [systemFunctions, List.forall_mem_cons]
  exact ⟨fun h => time_keeps (h.ne_inRange (by decide)), fun _ => tail_keeps,
    List.forall_mem_nil _⟩

theorem engineFunctions_keep :
    ∀ function ∈ engineFunctions, function.behaviour.Keeps demand := by
  simp only [engineFunctions, List.forall_mem_cons]
  exact ⟨trivial, trivial, trivial, List.forall_mem_nil _⟩

end Builtin

theorem FunctionTable.builtin_keeps {function : Function}
    (h : function ∈ FunctionTable.builtin.functions) (htame : Builtin.Tame demand function) :
    function.behaviour.Keeps demand := by
  simp only [builtin, List.mem_append] at h
  rcases h with (((((h | h) | h) | h) | h) | h) | h
  · exact Builtin.mathFunctions_keep function h htame
  · exact Builtin.angleFunctions_keep function h
  · exact Builtin.collectionFunctions_keep function h htame
  · exact Builtin.stringFunctions_keep function h htame
  · exact Builtin.engineFunctions_keep function h
  · exact Builtin.cryptographyFunctions_keep function h htame
  · exact Builtin.systemFunctions_keep function h htame

end Calculator
