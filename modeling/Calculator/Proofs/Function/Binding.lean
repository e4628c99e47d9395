import Mathlib.Tactic.ByContra
import Calculator.Proofs.Hazard.Function

/-!
# What parameters get

A call is refused because of its signature, the count of its arguments or the first argument that
its parameter does not take. Otherwise each argument goes to the parameter at its own place, and all
that are left go to the last one. The count does not say which parameters get something: an optional
one that stands before others takes what was meant for them.
-/

namespace Calculator

namespace Arguments

variable {arguments : Arguments} {name : String}

theorem all_bind (arguments : Arguments) (name other : String) (value : Value) :
    (arguments.bind name value).all other =
      arguments.all other ++ if other = name then [value] else [] := by
  rw [all, bind, lookup_addTo]
  split
  case isTrue h => rw [h, Option.getD_some, all]
  case isFalse => rw [List.append_nil, all]

/-- An open slot has got nothing yet. -/
theorem getD_lookup_openSlot (slots : List (String × List Value)) (name other : String) :
    ((openSlot slots name).lookup other).getD [] = (slots.lookup other).getD [] := by
  rw [openSlot]
  split
  case isTrue => rfl
  case isFalse =>
    rw [List.lookup_append]
    cases slots.lookup other with
    | some values => rfl
    | none => cases h : other == name <;> simp [List.lookup_cons, h]

theorem all_openSlots (parameters : List Parameter) (slots : List (String × List Value))
    (ordered : List Value) (name : String) :
    all ⟨parameters.foldl (fun slots p => openSlot slots p.name) slots, ordered⟩ name =
      all ⟨slots, ordered⟩ name := by
  induction parameters generalizing slots with
  | nil => rfl
  | cons parameter parameters ih =>
    rw [List.foldl_cons, ih]
    exact getD_lookup_openSlot slots parameter.name name

end Arguments

namespace Signature

variable {signature : Signature} {site : Site} {values : List Value} {parameter : Parameter}

/-! ## Which calls are refused -/

/-- A plural parameter is not the last one, or not the only one. -/
def PluralEarly (signature : Signature) : Prop :=
  ∃ i parameter, signature.parameters[i]? = some parameter ∧ parameter.plural = true ∧
    i + 1 ≠ signature.parameters.length

theorem isAmbiguous_iff : signature.isAmbiguous = true ↔ signature.PluralEarly := by
  simp only [isAmbiguous, List.any_eq_true, List.mem_iff_getElem?, List.getElem?_dropLast]
  constructor
  · rintro ⟨parameter, ⟨i, hi⟩, hplural⟩
    split at hi
    case isTrue hless => exact ⟨i, parameter, hi, hplural, by omega⟩
    case isFalse => cases hi
  · rintro ⟨i, parameter, hi, hplural, hne⟩
    have hlength := (List.getElem?_eq_some_iff.mp hi).1
    exact ⟨parameter, ⟨i, by rw [if_pos (by omega), hi]⟩, hplural⟩

/-- There are too few arguments, or too many and no plural parameter. -/
def Miscounts (signature : Signature) (count : Nat) : Prop :=
  count < signature.parameters.countP (!·.optional) ∨
    (∀ parameter ∈ signature.parameters, parameter.plural = false) ∧
      signature.parameters.length < count

theorem takes_iff {count : Nat} : signature.takes count = true ↔ ¬signature.Miscounts count := by
  have hplural : signature.isPlural = false ↔
      ∀ parameter ∈ signature.parameters, parameter.plural = false := by
    simp [isPlural]
  rw [takes, Miscounts, most?, ← hplural, least]
  cases signature.isPlural <;> simp

/-- The parameter of the argument at the place does not take it. -/
def Refuses (signature : Signature) (values : List Value) (i : Nat) : Prop :=
  ∃ value parameter, values[i]? = some value ∧ signature.parameter? i = some parameter ∧
    parameter.expected.admits value = false

/-- From the start on, the parameters take these values. -/
def Accepts (signature : Signature) (start : Nat) (values : List Value) : Prop :=
  ∀ k value parameter, values[k]? = some value → signature.parameter? (start + k) = some parameter →
    parameter.expected.admits value = true

theorem Accepts.head {start : Nat} {value : Value} (h : signature.Accepts start (value :: values))
    (hparameter : signature.parameter? start = some parameter) :
    parameter.expected.admits value = true := h 0 value parameter rfl hparameter

theorem Accepts.tail {start : Nat} {value : Value} (h : signature.Accepts start (value :: values)) :
    signature.Accepts (start + 1) values := fun k other parameter hother hparameter =>
  h (k + 1) other parameter hother (by rwa [Nat.add_right_comm] at hparameter)

theorem accepts_take {i : Nat} (h : ∀ k < i, ¬signature.Refuses values k) :
    signature.Accepts 0 (values.take i) := by
  intro k value parameter hvalue hparameter
  rw [Nat.zero_add] at hparameter
  rw [List.getElem?_take] at hvalue
  split at hvalue
  case isTrue hless =>
    cases hadmits : parameter.expected.admits value with
    | true => rfl
    | false => exact absurd ⟨value, parameter, hvalue, hparameter, hadmits⟩ (h k hless)
  case isFalse => cases hvalue

theorem exists_parameter (h : signature.parameters ≠ []) (i : Nat) :
    ∃ parameter, signature.parameter? i = some parameter := by
  have hlength := List.length_pos_iff.mpr h
  exact ⟨_, List.getElem?_eq_getElem (by omega)⟩

theorem bindFrom_refused {accepted others : List Value} {value : Value} {start : Nat}
    {arguments : Arguments} (haccepts : signature.Accepts start accepted)
    (hparameter : signature.parameter? (start + accepted.length) = some parameter)
    (hrefuses : parameter.expected.admits value = false) :
    signature.bindFrom site start arguments (accepted ++ value :: others) =
      Attempt.fail site
        (.argumentType (start + accepted.length + 1) parameter.expected signature.text) := by
  induction accepted generalizing start arguments with
  | nil =>
    have hstart : signature.parameter? start = some parameter := hparameter
    rw [List.nil_append, bindFrom, hstart]
    exact if_neg (Bool.eq_false_iff.mp hrefuses)
  | cons first accepted ih =>
    have hlength : start + (first :: accepted).length = start + 1 + accepted.length := by
      rw [List.length_cons]
      omega
    have hsome : signature.parameters ≠ [] := by
      rintro hnone
      simp [parameter?, hnone] at hparameter
    obtain ⟨earlier, hearlier⟩ := exists_parameter hsome start
    rw [hlength] at hparameter ⊢
    rw [List.cons_append, bindFrom, hearlier]
    dsimp only
    rw [if_pos (haccepts.head hearlier)]
    exact ih haccepts.tail hparameter

/-! ## What each parameter gets -/

/-- What goes to a place of the values from a start on. -/
def received (signature : Signature) (start : Nat) (values : List Value) (place : Nat) :
    List Value :=
  if place + 1 = signature.parameters.length then values.drop (place - start)
  else if start ≤ place then values[place - start]?.toList else []

theorem received_nil (signature : Signature) (start place : Nat) :
    signature.received start [] place = [] := by
  simp [received]

theorem received_cons {place : Nat} (hplace : place < signature.parameters.length) (start : Nat)
    (value : Value) (values : List Value) :
    signature.received start (value :: values) place =
      (if place = min start (signature.parameters.length - 1) then [value] else []) ++
        signature.received (start + 1) values place := by
  unfold received
  by_cases hlast : place + 1 = signature.parameters.length
  · rw [if_pos hlast, if_pos hlast]
    rcases Nat.lt_or_ge start place with hbefore | hreached
    · rw [if_neg (by omega), show place - start = place - (start + 1) + 1 by omega]
      rfl
    · rw [if_pos (by omega), Nat.sub_eq_zero_of_le hreached, Nat.sub_eq_zero_of_le (by omega)]
      rfl
  · -- A place before the last one gets the value at it, and nothing once the start has passed it.
    rw [if_neg hlast, if_neg hlast]
    rcases Nat.lt_trichotomy start place with hbefore | rfl | hpast
    · rw [if_pos (by omega), if_neg (by omega), if_pos (Nat.succ_le_of_lt hbefore),
        show place - start = place - (start + 1) + 1 by omega]
      rfl
    · rw [if_pos (Nat.le_refl _), if_pos (by omega), if_neg (by omega), Nat.sub_self]
      rfl
    · rw [if_neg (by omega), if_neg (by omega), if_neg (by omega)]
      rfl

theorem name_eq_iff (hnames : (signature.parameters.map (·.name)).Nodup) {i k : Nat}
    {other : Parameter} (hparameter : signature.parameters[i]? = some parameter)
    (hother : signature.parameters[k]? = some other) : parameter.name = other.name ↔ i = k := by
  constructor
  · intro hname
    have hi : (signature.parameters.map (·.name))[i]? = some parameter.name := by simp [hparameter]
    have hk : (signature.parameters.map (·.name))[k]? = some parameter.name := by
      simp [hother, hname]
    have hless := (List.getElem?_eq_some_iff.mp hi).1
    exact (List.getElem?_inj hless hnames).mp (hi.trans hk.symm)
  · rintro rfl
    cases hparameter.symm.trans hother
    rfl

theorem bindFrom_accepted (site : Site) (hnames : (signature.parameters.map (·.name)).Nodup)
    (hsome : values ≠ [] → signature.parameters ≠ []) {start : Nat} (arguments : Arguments)
    (haccepts : signature.Accepts start values) :
    ∃ bound, signature.bindFrom site start arguments values = .ok bound ∧
      bound.ordered = arguments.ordered ++ values ∧
      ∀ place parameter, signature.parameters[place]? = some parameter →
        bound.all parameter.name =
          arguments.all parameter.name ++ signature.received start values place := by
  -- What has been bound so far only grows at its end, so each place is described by what follows.
  induction values generalizing start arguments with
  | nil =>
    refine ⟨arguments, rfl, (List.append_nil _).symm, fun place parameter _ => ?_⟩
    rw [received_nil, List.append_nil]
  | cons value values ih =>
    have hparameters := hsome (List.cons_ne_nil value values)
    obtain ⟨taker, htaker⟩ := exists_parameter hparameters start
    obtain ⟨bound, hbound, hordered, hall⟩ :=
      ih (fun _ => hparameters) (arguments.bind taker.name value) haccepts.tail
    refine ⟨bound, ?_, ?_, fun place parameter hparameter => ?_⟩
    · rw [bindFrom, htaker]
      exact (if_pos (haccepts.head htaker)).trans hbound
    · rw [hordered, Arguments.bind, List.append_assoc]
      rfl
    · have hplace := (List.getElem?_eq_some_iff.mp hparameter).1
      rw [hall place parameter hparameter, Arguments.all_bind, received_cons hplace,
        List.append_assoc]
      simp only [name_eq_iff hnames hparameter htaker]

/-- Values can be refused for their types only. -/
theorem bindFrom_cases (signature : Signature) (site : Site) (start : Nat) (arguments : Arguments)
    (values : List Value) :
    (∃ bound, signature.bindFrom site start arguments values = .ok bound) ∨
      ∃ position expected, signature.bindFrom site start arguments values =
        Attempt.fail site (.argumentType position expected signature.text) := by
  fun_induction bindFrom site signature start arguments values with
  | case1 => exact .inl ⟨_, rfl⟩
  | case2 => exact .inl ⟨_, rfl⟩
  | case3 _ _ _ _ _ _ _ ih => exact ih
  | case4 => exact .inr ⟨_, _, rfl⟩

/-! ## Calls -/

theorem bind_of_pluralEarly (h : signature.PluralEarly) :
    signature.bind site values = Attempt.fail site (.ambiguousDefinition signature.text) :=
  if_pos (isAmbiguous_iff.mpr h)

theorem bind_of_miscounts (hplural : ¬signature.PluralEarly)
    (h : signature.Miscounts values.length) : signature.bind site values =
      Attempt.fail site (.argumentCount signature.least signature.most? signature.text) := by
  rw [bind, if_neg (mt isAmbiguous_iff.mp hplural), if_pos]
  exact Bool.not_eq_true' _ ▸ Bool.eq_false_iff.mpr fun htakes => takes_iff.mp htakes h

theorem exists_bind_eq (site : Site) (hplural : ¬signature.PluralEarly)
    (hcount : ¬signature.Miscounts values.length) : ∃ slots,
      (∀ name, Arguments.all ⟨slots, []⟩ name = []) ∧
      signature.bind site values = signature.bindFrom site 0 ⟨slots, []⟩ values := by
  refine ⟨_, fun name => Arguments.all_openSlots signature.parameters [] [] name, ?_⟩
  rw [bind, if_neg (mt isAmbiguous_iff.mp hplural), takes_iff.mpr hcount]
  rfl

/-- A parameter with no optional one before it gets something in every call that is not refused. -/
theorem lt_of_needed {k count : Nat} (hcount : ¬signature.Miscounts count)
    (hparameter : signature.parameters[k]? = some parameter)
    (hneeded : ∀ i other, i ≤ k → signature.parameters[i]? = some other → other.optional = false) :
    k < count := by
  have hall : ∀ other ∈ signature.parameters.take (k + 1), other.optional = false := by
    intro other hother
    obtain ⟨i, hi⟩ := List.mem_iff_getElem?.mp hother
    rw [List.getElem?_take] at hi
    split at hi
    case isTrue hless => exact hneeded i other (Nat.le_of_lt_succ hless) hi
    case isFalse => cases hi
  have horderly : (signature.parameters.take (k + 1)).Pairwise
      fun earlier later => earlier.optional → later.optional :=
    List.pairwise_of_forall_mem_list fun earlier hearlier _ _ hoptional =>
      absurd (hall earlier hearlier) (by simp [hoptional])
  have hfound : (signature.parameters.take (k + 1))[k]? = some parameter := by
    rw [List.getElem?_take_of_lt (Nat.lt_succ_self k), hparameter]
  have hleast := lt_countP horderly hfound (hneeded k parameter (Nat.le_refl k) hparameter)
  have htake := (List.take_sublist (k + 1) signature.parameters).countP_le (p := (!·.optional))
  have hfew : ¬count < signature.parameters.countP (!·.optional) := fun h => hcount (.inl h)
  omega

theorem bind_cases (site : Site) (hplural : ¬signature.PluralEarly)
    (hcount : ¬signature.Miscounts values.length) :
    (∃ bound, signature.bind site values = .ok bound) ∨
      ∃ position expected, signature.bind site values =
        Attempt.fail site (.argumentType position expected signature.text) := by
  obtain ⟨slots, -, heq⟩ := exists_bind_eq site hplural hcount
  rw [heq]
  exact signature.bindFrom_cases site 0 ⟨slots, []⟩ values

theorem pluralEarly_of_bind
    (h : signature.bind site values = Attempt.fail site (.ambiguousDefinition signature.text)) :
    signature.PluralEarly := by
  by_contra hplural
  by_cases hcount : signature.Miscounts values.length
  · cases (bind_of_miscounts hplural hcount).symm.trans h
  · rcases bind_cases site hplural hcount with ⟨bound, hbound⟩ | ⟨_, _, hrefused⟩
    · cases hbound.symm.trans h
    · cases hrefused.symm.trans h

theorem miscounts_of_bind (hplural : ¬signature.PluralEarly)
    (h : signature.bind site values =
      Attempt.fail site (.argumentCount signature.least signature.most? signature.text)) :
    signature.Miscounts values.length := by
  by_contra hcount
  rcases bind_cases site hplural hcount with ⟨bound, hbound⟩ | ⟨_, _, hrefused⟩
  · cases hbound.symm.trans h
  · cases hrefused.symm.trans h

theorem bind_of_refuses {i : Nat} (hplural : ¬signature.PluralEarly)
    (hcount : ¬signature.Miscounts values.length) (hrefuses : signature.Refuses values i)
    (hfirst : ∀ k < i, ¬signature.Refuses values k)
    (hparameter : signature.parameter? i = some parameter) : signature.bind site values =
      Attempt.fail site (.argumentType (i + 1) parameter.expected signature.text) := by
  obtain ⟨value, taker, hvalue, htaker, hadmits⟩ := hrefuses
  cases htaker.symm.trans hparameter
  obtain ⟨slots, -, heq⟩ := exists_bind_eq site hplural hcount
  obtain ⟨hlength, hget⟩ := List.getElem?_eq_some_iff.mp hvalue
  have hvalues : values = values.take i ++ value :: values.drop (i + 1) := by
    rw [← hget, List.getElem_cons_drop, List.take_append_drop]
  have htake : 0 + (values.take i).length = i := by
    rw [Nat.zero_add, List.length_take_of_le (Nat.le_of_lt hlength)]
  rw [heq, hvalues, bindFrom_refused (accepts_take hfirst) (htake.symm ▸ hparameter) hadmits, htake]

/-- All values are there, each under the name of the parameter at its place or of the last one. -/
structure Shares (signature : Signature) (values : List Value) (bound : Arguments) : Prop where
  ordered : bound.ordered = values
  all_eq : ∀ place parameter, signature.parameters[place]? = some parameter →
    bound.all parameter.name =
      if place + 1 = signature.parameters.length then values.drop place
      else values[place]?.toList

theorem bind_of_accepts (site : Site) (hnames : (signature.parameters.map (·.name)).Nodup)
    (hplural : ¬signature.PluralEarly) (hcount : ¬signature.Miscounts values.length)
    (haccepts : ∀ i, ¬signature.Refuses values i) :
    ∃ bound, signature.bind site values = .ok bound ∧ signature.Shares values bound := by
  obtain ⟨slots, hslots, heq⟩ := exists_bind_eq site hplural hcount
  have hsome : values ≠ [] → signature.parameters ≠ [] := by
    intro hvalues hnone
    refine hcount (.inr ⟨fun parameter hparameter => ?_, ?_⟩)
    · rw [hnone] at hparameter
      cases hparameter
    · rw [hnone]
      exact List.length_pos_iff.mpr hvalues
  have hall : signature.Accepts 0 values := by
    rw [← List.take_length (l := values)]
    exact accepts_take fun k _ => haccepts k
  obtain ⟨bound, hbound, hordered, hplaces⟩ :=
    bindFrom_accepted site hnames hsome ⟨slots, []⟩ hall
  refine ⟨bound, heq.trans hbound, hordered, fun place parameter hparameter => ?_⟩
  rw [hplaces place parameter hparameter, hslots, List.nil_append, received, Nat.sub_zero,
    if_pos (Nat.zero_le place)]

theorem Shares.head? {bound : Arguments} {place : Nat} (h : signature.Shares values bound)
    (hparameter : signature.parameters[place]? = some parameter) :
    bound.first? parameter.name = values[place]? := by
  rw [Arguments.first?, h.all_eq place parameter hparameter]
  split
  · exact List.head?_drop
  · cases values[place]? <;> rfl

/--
A call is refused because of a plural parameter that is not the single last one, and else because of
the count of its arguments, and else because of the first argument that its parameter does not take.
Otherwise the arguments are there in their order, each under the name of the parameter at its place,
and the last parameter has all that are left. A parameter has got something if there are more
arguments than its place. For one that is not optional, that is so in every call if no optional one
stands before it.
-/
theorem bind_complete (signature : Signature) (site : Site) (values : List Value)
    (hnames : (signature.parameters.map (·.name)).Nodup) :
    let result := signature.bind site values
    (result = Attempt.fail site (.ambiguousDefinition signature.text) ↔ signature.PluralEarly) ∧
    (¬signature.PluralEarly →
      (result = Attempt.fail site
          (.argumentCount signature.least signature.most? signature.text) ↔
        signature.Miscounts values.length) ∧
      (¬signature.Miscounts values.length →
        (∀ i parameter, signature.Refuses values i → (∀ k < i, ¬signature.Refuses values k) →
          signature.parameter? i = some parameter →
            result = Attempt.fail site
              (.argumentType (i + 1) parameter.expected signature.text)) ∧
        ((∀ i, ¬signature.Refuses values i) →
          ∃ bound, result = .ok bound ∧ signature.Shares values bound ∧
            ∀ place parameter, signature.parameters[place]? = some parameter →
              (∀ value, values[place]? = some value →
                bound.required parameter.name = .ok value) ∧
              (values.length ≤ place → bound.required parameter.name = .error (.error
                (.internal s!"missing required argument '{parameter.name}'") none)) ∧
              ((∀ i other, i ≤ place → signature.parameters[i]? = some other →
                other.optional = false) → place < values.length)))) := by
  intro result
  refine ⟨⟨pluralEarly_of_bind, bind_of_pluralEarly⟩, fun hplural =>
    ⟨⟨miscounts_of_bind hplural, bind_of_miscounts hplural⟩, fun hcount => ⟨?_, ?_⟩⟩⟩
  case refine_1 =>
    intro i parameter hrefuses hfirst hparameter
    exact bind_of_refuses hplural hcount hrefuses hfirst hparameter
  case refine_2 =>
    intro haccepts
    obtain ⟨bound, hbound, hshares⟩ := bind_of_accepts site hnames hplural hcount haccepts
    refine ⟨bound, hbound, hshares, fun place parameter hparameter => ⟨?_, ?_, ?_⟩⟩
    · intro value hvalue
      rw [Arguments.required, hshares.head? hparameter, hvalue]
    · intro hfew
      rw [Arguments.required, hshares.head? hparameter, List.getElem?_eq_none hfew]
    · exact lt_of_needed hcount hparameter

/-- A parameter that is not optional, an optional one, and one for all that is left. -/
def joining : Signature :=
  ⟨"join", [{ name := "separator" }, { name := "limit", expected := .int, optional := true },
    { name := "parts", optional := true, plural := true }]⟩

theorem bind_complete_joining :
    let values : List Value := [.string ",", .int 2, .bool true, .none]
    (joining.parameters.map (·.name)).Nodup ∧
    ∃ bound, joining.bind ⟨"join(s, 2, true, x)", 0⟩ values = .ok bound ∧
      joining.Shares values bound ∧ bound.required "separator" = .ok (.string ",") := by
  intro values
  have hnames : (joining.parameters.map (·.name)).Nodup := by decide
  have hplural : ¬joining.PluralEarly := mt isAmbiguous_iff.mpr (by decide)
  have hcount : ¬joining.Miscounts values.length := takes_iff.mp (by decide)
  have haccepts : ∀ i, ¬joining.Refuses values i := by
    rintro i ⟨value, parameter, hvalue, hparameter, hadmits⟩
    match i with
    | 0 | 1 | 2 | 3 =>
      cases hvalue
      cases hparameter
      cases hadmits
    | i + 4 => cases hvalue
  obtain ⟨-, hcounted⟩ :=
    (bind_complete joining ⟨"join(s, 2, true, x)", 0⟩ values hnames).2 hplural
  obtain ⟨bound, hbound, hshares, hplaces⟩ := (hcounted hcount).2 haccepts
  exact ⟨hnames, bound, hbound, hshares, (hplaces 0 _ rfl).1 _ rfl⟩

/-- The only argument goes to the optional parameter in front, and the other one gets nothing. -/
theorem bind_passes_over_needed :
    let signature : Signature := ⟨"custom", [{ name := "a", optional := true }, { name := "b" }]⟩
    ∃ bound, signature.bind ⟨"custom(1)", 0⟩ [.int 1] = .ok bound ∧
      bound.required "b" =
        .error (.error (.internal "missing required argument 'b'") none) :=
  ⟨_, rfl, rfl⟩

end Signature

end Calculator
