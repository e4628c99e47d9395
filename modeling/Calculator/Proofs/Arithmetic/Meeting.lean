import Calculator.Function.Mapping

/-!
# How two values meet

An operation reaches into arrays and objects by way of pairs: it is done on every pair of values
that meet, in order, and the results are put together again. In the end it is done on pairs of
scalars. A function of one number reaches into them part by part.
-/

namespace Calculator

/-! ## One attempt after the other -/

namespace Attempt

variable {α β : Type}

def failure? : Attempt α → Option Failure
  | .ok _ => none
  | .error failure => some failure

theorem failure?_map (f : α → β) (attempt : Attempt α) :
    (f <$> attempt).failure? = attempt.failure? := by
  cases attempt <;> rfl

/-- The first attempt that fails is the last one that is made. -/
theorem failure?_mapM (f : α → Attempt β) (xs : List α) :
    (xs.mapM f).failure? = xs.findSome? fun x => (f x).failure? := by
  induction xs with
  | nil => rfl
  | cons x xs ih =>
    rw [List.mapM_cons, List.findSome?_cons, ← ih]
    cases f x with
    | error failure => rfl
    | ok y => cases xs.mapM f <;> rfl

theorem mapM_congr {f g : α → Attempt β} {xs : List α} (h : ∀ x ∈ xs, f x = g x) :
    xs.mapM f = xs.mapM g := by
  induction xs with
  | nil => rfl
  | cons x xs ih =>
    rw [List.forall_mem_cons] at h
    rw [List.mapM_cons, List.mapM_cons, h.1, ih h.2]

/-- A recursion that goes from item to item. -/
theorem eq_mapM {f : α → Attempt β} (fs : List α → Attempt (List β)) (hnil : fs [] = .ok [])
    (hcons : ∀ x xs, fs (x :: xs) = do return (← f x) :: (← fs xs)) (xs : List α) :
    fs xs = xs.mapM f := by
  induction xs with
  | nil => exact hnil
  | cons x xs ih => rw [hcons, List.mapM_cons, ih]

theorem mem_of_mapM_eq_ok {f : α → Attempt β} {xs : List α} {ys : List β}
    (h : xs.mapM f = .ok ys) : ∀ y ∈ ys, ∃ x ∈ xs, f x = .ok y := by
  induction xs generalizing ys with
  | nil =>
    cases h
    exact List.forall_mem_nil _
  | cons x xs ih =>
    rw [List.mapM_cons] at h
    obtain ⟨y, hy, h⟩ := bind_eq_ok.mp h
    obtain ⟨rest, hrest, h⟩ := bind_eq_ok.mp h
    cases h
    rw [List.forall_mem_cons]
    refine ⟨⟨x, List.mem_cons_self, hy⟩, fun z hz => ?_⟩
    obtain ⟨w, hw, hz⟩ := ih hrest z hz
    exact ⟨w, List.mem_cons_of_mem x hw, hz⟩

/-- Comes to the result unless there is trouble. -/
def orElseFail (trouble? : Option Failure) (result : α) : Attempt α :=
  match trouble? with
  | some failure => .error failure
  | none => .ok result

section

variable {γ : Type} (first? second? : Option Failure)

theorem orElseFail_map (f : α → β) (a : α) :
    (do return f (← orElseFail first? a)) = orElseFail first? (f a) := by
  cases first? <;> rfl

theorem orElseFail_eq_ok {a b : α} : orElseFail first? a = .ok b ↔ first? = none ∧ b = a := by
  cases first? <;> simp [orElseFail, eq_comm]

theorem orElseFail_eq_error {a : α} {why : Failure} :
    orElseFail first? a = .error why ↔ first? = some why := by
  cases first? <;> simp [orElseFail]

/-- Of two troubles the first one counts. -/
theorem orElseFail_map₂ (f : α → β → γ) (a : α) (b : β) :
    (do return f (← orElseFail first? a) (← orElseFail second? b)) =
      orElseFail (first?.or second?) (f a b) := by
  cases first? with
  | none => exact orElseFail_map second? (f a) b
  | some failure => rfl

end

end Attempt

/-! ## Leaves -/

namespace Value

mutual

/-- What holds no other values, from left to right. Keys are not looked at. -/
def leaves : Value → List Value
  | array items => itemLeaves items
  | object entries => entryLeaves entries
  | value => [value]

def itemLeaves : List Value → List Value
  | [] => []
  | item :: items => leaves item ++ itemLeaves items

def entryLeaves : Entries → List Value
  | [] => []
  | (_, value) :: entries => leaves value ++ entryLeaves entries

end

theorem mem_itemLeaves {leaf : Value} {items : List Value} :
    leaf ∈ itemLeaves items ↔ ∃ item ∈ items, leaf ∈ item.leaves := by
  induction items with
  | nil => simp [itemLeaves]
  | cons item items ih => simp [itemLeaves, ih]

theorem mem_entryLeaves {leaf : Value} {entries : Entries} :
    leaf ∈ entryLeaves entries ↔ ∃ entry ∈ entries, leaf ∈ entry.2.leaves := by
  induction entries with
  | nil => simp [entryLeaves]
  | cons entry entries ih => simp [entryLeaves, ih]

@[simp] theorem mem_leaves_array {leaf : Value} {items : List Value} :
    leaf ∈ (array items).leaves ↔ ∃ item ∈ items, leaf ∈ item.leaves := mem_itemLeaves

@[simp] theorem mem_leaves_object {leaf : Value} {entries : Entries} :
    leaf ∈ (object entries).leaves ↔ ∃ entry ∈ entries, leaf ∈ entry.2.leaves := mem_entryLeaves

theorem leaves_of_not_compound {value : Value} (h : value.isCompound = false) :
    value.leaves = [value] := by
  cases value with
  | array | object => cases h
  | _ => rfl

theorem not_compound {value : Value} (harray : ∀ items, value = array items → False)
    (hobject : ∀ entries, value = object entries → False) : value.isCompound = false := by
  cases value with
  | array items => exact (harray items rfl).elim
  | object entries => exact (hobject entries rfl).elim
  | _ => rfl

end Value

namespace Arithmetic

/-! ## Pairs -/

inductive Meeting where
  /-- There is nothing to reach into. -/
  | scalars
  /-- The pairs that meet, and what becomes of their results. -/
  | each (pairs : List (Value × Value)) (rebuild : List Value → Value)
  | refused (cause : Cause)

/-- The keys of an object over new values. -/
def underKeys (entries : Entries) (values : List Value) : Value :=
  .object ((entries.map (·.1)).zip values)

def meeting : Value → Value → Meeting
  | .array xs, .array ys =>
    if xs.length = ys.length then .each (xs.zip ys) .array else .refused .lengthMismatch
  | .array _, .object _ => .refused (.valueType .array)
  | .object _, .array _ => .refused (.valueType .object)
  | .object _, .object _ => .refused (.valueType .number)
  | .array xs, scalar => .each (xs.map fun x => (x, scalar)) .array
  | scalar, .array ys => .each (ys.map fun y => (scalar, y)) .array
  | .object entries, scalar =>
    .each (entries.map fun entry => (entry.2, scalar)) (underKeys entries)
  | scalar, .object entries =>
    .each (entries.map fun entry => (scalar, entry.2)) (underKeys entries)
  | _, _ => .scalars

/-- The pairs from left to right, up to the first that fails. -/
def Meeting.run (site : Site) (element : ScalarOperation) (whole : Attempt Value) :
    Meeting → Attempt Value
  | .scalars => whole
  | .each pairs rebuild => rebuild <$> pairs.mapM fun pair => element pair.1 pair.2
  | .refused cause => Attempt.fail site cause

theorem Meeting.run_congr {site : Site} {element other : ScalarOperation}
    {whole otherWhole : Attempt Value} {meeting : Meeting}
    (hscalars : meeting = .scalars → whole = otherWhole)
    (heach : ∀ pairs rebuild, meeting = .each pairs rebuild →
      ∀ pair ∈ pairs, element pair.1 pair.2 = other pair.1 pair.2) :
    meeting.run site element whole = meeting.run site other otherWhole := by
  cases meeting with
  | scalars => exact hscalars rfl
  | each pairs rebuild =>
    exact congrArg (rebuild <$> ·) (Attempt.mapM_congr (heach pairs rebuild rfl))
  | refused cause => rfl

/-! ### What is in a pair -/

/-- All of a scalar, and what an array or object holds. -/
inductive Part : Value → Value → Prop where
  | scalar {value : Value} (h : value.isCompound = false) : Part value value
  | item {items : List Value} {x : Value} (h : x ∈ items) : Part (.array items) x
  | value {entries : Entries} {entry : Value × Value} (h : entry ∈ entries) :
    Part (.object entries) entry.2

namespace Part

variable {whole part : Value}

theorem leaves_subset (h : Part whole part) {leaf : Value} (hleaf : leaf ∈ part.leaves) :
    leaf ∈ whole.leaves := by
  cases h with
  | scalar => exact hleaf
  | item h => exact Value.mem_leaves_array.mpr ⟨_, h, hleaf⟩
  | value h => exact Value.mem_leaves_object.mpr ⟨_, h, hleaf⟩

theorem sizeOf_lt (h : Part whole part) (hwhole : whole.isCompound = true) :
    sizeOf part < sizeOf whole := by
  cases h with
  | scalar h =>
    rw [h] at hwhole
    cases hwhole
  | item h =>
    have hsize := List.sizeOf_lt_of_mem h
    simp only [Value.array.sizeOf_spec]
    omega
  | @value _ entry h =>
    have hsize := List.sizeOf_lt_of_mem h
    have hentry : sizeOf entry = 1 + sizeOf entry.1 + sizeOf entry.2 := by
      cases entry
      rfl
    simp only [Value.object.sizeOf_spec]
    omega

theorem sizeOf_le (h : Part whole part) : sizeOf part ≤ sizeOf whole := by
  by_cases hwhole : whole.isCompound = true
  · exact Nat.le_of_lt (h.sizeOf_lt hwhole)
  · cases h with
    | scalar => exact Nat.le_refl _
    | item | value => exact absurd rfl hwhole

end Part

/-- What holds of a value if it holds of all its parts holds of every value. -/
@[elab_as_elim]
theorem parts_induction {motive : Value → Prop}
    (scalar : ∀ value, value.isCompound = false → motive value)
    (array : ∀ items, (∀ item ∈ items, motive item) → motive (.array items))
    (object : ∀ entries : Entries, (∀ entry ∈ entries, motive entry.2) → motive (.object entries))
    (value : Value) : motive value := by
  match value with
  | .array items => exact array items fun item _ => parts_induction scalar array object item
  | .object entries =>
    exact object entries fun entry _ => parts_induction scalar array object entry.2
  | .none | .bool _ | .int _ | .float _ | .string _ | .name _ => exact scalar _ rfl
termination_by sizeOf value
decreasing_by
  · exact (Part.item ‹_›).sizeOf_lt rfl
  · exact (Part.value ‹_›).sizeOf_lt rfl

theorem parts_of_meeting {left right : Value} {pairs : List (Value × Value)}
    {rebuild : List Value → Value} (h : meeting left right = .each pairs rebuild) :
    ∀ pair ∈ pairs, Part left pair.1 ∧ Part right pair.2 ∧
      (left.isCompound = true ∨ right.isCompound = true) := by
  intro pair hpair
  unfold meeting at h
  split at h
  case h_1 xs ys =>
    split at h
    · cases h
      obtain ⟨hx, hy⟩ := List.of_mem_zip hpair
      exact ⟨.item hx, .item hy, .inl rfl⟩
    · cases h
  case h_5 xs harray hobject =>
    cases h
    obtain ⟨x, hx, rfl⟩ := List.mem_map.mp hpair
    exact ⟨.item hx, .scalar (Value.not_compound harray hobject), .inl rfl⟩
  case h_6 ys harray hobject =>
    cases h
    obtain ⟨y, hy, rfl⟩ := List.mem_map.mp hpair
    exact ⟨.scalar (Value.not_compound harray hobject), .item hy, .inr rfl⟩
  case h_7 entries harray hobject =>
    cases h
    obtain ⟨entry, hentry, rfl⟩ := List.mem_map.mp hpair
    exact ⟨.value hentry, .scalar (Value.not_compound harray hobject), .inl rfl⟩
  case h_8 entries harray hobject =>
    cases h
    obtain ⟨entry, hentry, rfl⟩ := List.mem_map.mp hpair
    have hpart : Part (.object entries) entry.2 := .value hentry
    exact ⟨.scalar (Value.not_compound harray hobject), hpart, .inr rfl⟩
  all_goals cases h

/-- Values meet in smaller values, until they are scalars. -/
theorem meeting_induction {motive : Value → Value → Prop}
    (step : ∀ left right, (∀ pairs rebuild, meeting left right = .each pairs rebuild →
      ∀ pair ∈ pairs, motive pair.1 pair.2) → motive left right) (left right : Value) :
    motive left right := by
  refine step left right fun pairs rebuild h pair hpair => ?_
  obtain ⟨hleft, hright, hcompound⟩ := parts_of_meeting h pair hpair
  have hsmaller : sizeOf pair.1 + sizeOf pair.2 < sizeOf left + sizeOf right := by
    rcases hcompound with hcompound | hcompound
    · exact Nat.add_lt_add_of_lt_of_le (hleft.sizeOf_lt hcompound) hright.sizeOf_le
    · exact Nat.add_lt_add_of_le_of_lt hleft.sizeOf_le (hright.sizeOf_lt hcompound)
  exact meeting_induction step pair.1 pair.2
termination_by sizeOf left + sizeOf right

/-- Results are put together as an array, or under the keys of the object that was reached into. -/
theorem rebuild_cases {left right : Value} {pairs : List (Value × Value)}
    {rebuild : List Value → Value} (h : meeting left right = .each pairs rebuild) :
    rebuild = .array ∨ ∃ entries, (left = .object entries ∨ right = .object entries) ∧
      rebuild = underKeys entries := by
  unfold meeting at h
  split at h
  case h_1 =>
    split at h
    · cases h
      exact .inl rfl
    · cases h
  case h_5 | h_6 =>
    cases h
    exact .inl rfl
  case h_7 entries _ _ =>
    cases h
    exact .inr ⟨entries, .inl rfl, rfl⟩
  case h_8 entries _ _ =>
    cases h
    exact .inr ⟨entries, .inr rfl, rfl⟩
  all_goals cases h

theorem refused_cases {left right : Value} {cause : Cause}
    (h : meeting left right = .refused cause) :
    cause = .lengthMismatch ∨ ∃ expected, cause = .valueType expected := by
  unfold meeting at h
  split at h
  case h_1 =>
    split at h <;> cases h
    exact .inl rfl
  case h_2 | h_3 | h_4 =>
    cases h
    exact .inr ⟨_, rfl⟩
  all_goals cases h

theorem leaves_rebuild {left right : Value} {pairs : List (Value × Value)}
    {rebuild : List Value → Value} (h : meeting left right = .each pairs rebuild)
    {values : List Value} {leaf : Value} (hleaf : leaf ∈ (rebuild values).leaves) :
    ∃ value ∈ values, leaf ∈ value.leaves := by
  rcases rebuild_cases h with rfl | ⟨entries, -, rfl⟩
  · exact Value.mem_leaves_array.mp hleaf
  · obtain ⟨entry, hentry, hleaf⟩ := Value.mem_leaves_object.mp hleaf
    exact ⟨entry.2, (List.of_mem_zip hentry).2, hleaf⟩

/-! ## Broadcasting -/

section

variable (site : Site) (operation : ScalarOperation)

theorem meetItems_eq (left : Value) (items : List Value) :
    meetItems site operation left items = items.mapM (meetRight site operation left) :=
  Attempt.eq_mapM (meetItems site operation left) rfl (fun _ _ => rfl) items

/-- Values one after the other, and then each of them behind its key. -/
theorem cons_zip (key : Value) (keys : List Value) (first : Attempt Value)
    (rest : Attempt (List Value)) :
    (do return (key, ← first) :: (← keys.zip <$> rest)) =
      (key :: keys).zip <$> (do return (← first) :: (← rest)) := by
  cases first with
  | error failure => rfl
  | ok value => cases rest <;> rfl

theorem meetEntries_eq (left : Value) (entries : Entries) :
    meetEntries site operation left entries = (entries.map (·.1)).zip <$>
      entries.mapM fun entry => meetRight site operation left entry.2 := by
  induction entries with
  | nil => rfl
  | cons entry entries ih => rw [meetEntries, List.mapM_cons, ih, cons_zip, List.map_cons]

theorem pairItems_eq (lefts rights : List Value) :
    pairItems site operation lefts rights =
      (lefts.zip rights).mapM fun pair => broadcast site operation pair.1 pair.2 := by
  induction lefts generalizing rights with
  | nil =>
    rw [pairItems]
    · rfl
    · simp
  | cons left lefts ih =>
    cases rights with
    | nil =>
      rw [pairItems]
      · rfl
      · simp
    | cons right rights => rw [pairItems, List.zip_cons_cons, List.mapM_cons, ih]

theorem broadcastItems_eq (lefts : List Value) (right : Value) :
    broadcastItems site operation lefts right =
      lefts.mapM fun left => broadcast site operation left right := by
  induction lefts with
  | nil =>
    rw [broadcastItems]
    rfl
  | cons left lefts ih => rw [broadcastItems, List.mapM_cons, ih]

theorem broadcastEntries_eq (entries : Entries) (right : Value) :
    broadcastEntries site operation entries right = (entries.map (·.1)).zip <$>
      entries.mapM fun entry => broadcast site operation entry.2 right := by
  induction entries with
  | nil =>
    rw [broadcastEntries]
    rfl
  | cons entry entries ih => rw [broadcastEntries, List.mapM_cons, ih, cons_zip, List.map_cons]

theorem object_eq (entries : Entries) (values : Attempt (List Value)) :
    (do return Value.object (← (entries.map (·.1)).zip <$> values)) =
      underKeys entries <$> values := by
  cases values <;> rfl

theorem refuseName_eq {right : Value} (h : right.name? = none) :
    refuseName site right = .ok () := by
  rw [refuseName, h]

theorem meetRight_eq {left : Value} (hscalar : left.isCompound = false)
    (hname : left.name? = none) :
    meetRight site operation left = broadcast site operation left := by
  funext right
  cases left with
  | array | object => cases hscalar
  | name => cases hname
  | _ => rw [broadcast] <;> simp

/-- With no name on either side, values meet as `meeting` says. -/
theorem broadcast_eq {left right : Value} (hleft : left.name? = none)
    (hright : right.name? = none) :
    broadcast site operation left right =
      (meeting left right).run site (broadcast site operation) (operation left right) := by
  unfold meeting
  split
  case h_1 xs ys =>
    rw [broadcast, pairItems_eq]
    split <;> rfl
  case h_2 | h_3 | h_4 =>
    rw [broadcast]
    rfl
  case h_5 xs harray hobject =>
    rw [broadcast, broadcastItems_eq, refuseName_eq site hright, Meeting.run, List.mapM_map]
    · rfl
    · exact harray
    · exact hobject
  case h_6 ys harray hobject =>
    have hscalar := Value.not_compound harray hobject
    rw [← meetRight_eq site operation hscalar hleft, meetRight, meetItems_eq, Meeting.run,
      List.mapM_map, meetRight_eq site operation hscalar hleft]
    rfl
  case h_7 entries harray hobject =>
    rw [broadcast, broadcastEntries_eq, refuseName_eq site hright, Meeting.run, List.mapM_map]
    · exact object_eq entries _
    · exact harray
    · exact hobject
  case h_8 entries harray hobject =>
    have hscalar := Value.not_compound harray hobject
    rw [← meetRight_eq site operation hscalar hleft, meetRight, meetEntries_eq, Meeting.run,
      List.mapM_map, meetRight_eq site operation hscalar hleft]
    exact object_eq entries _
  case h_9 hleftArray hleftObject hrightArray hrightObject _ _ _ _ =>
    rw [← meetRight_eq site operation (Value.not_compound hleftArray hleftObject) hleft]
    cases right with
    | array items => exact (hrightArray items rfl).elim
    | object entries => exact (hrightObject entries rfl).elim
    | name => cases hright
    | _ => rfl

/-- A name on either side is refused before anything meets. -/
theorem broadcast_of_name {left right : Value} {s : String}
    (h : left.name?.or right.name? = some s) :
    broadcast site operation left right = Attempt.fail site (.unknownVariable s) := by
  cases left with
  | name =>
    cases h
    rw [broadcast]
  | _ =>
    cases right with
    | name =>
      cases h
      rw [broadcast] <;> first
        | rfl
        | simp
    | _ => cases h

/-- The ways of a broadcast: it refuses, it comes to scalars, or it goes from pair to pair. -/
@[elab_as_elim]
theorem broadcast_induction {motive : Value → Value → Attempt Value → Prop}
    (name : ∀ left right s, motive left right (Attempt.fail site (.unknownVariable s)))
    (refused : ∀ left right cause, meeting left right = .refused cause →
      motive left right (Attempt.fail site cause))
    (scalars : ∀ left right, motive left right (operation left right))
    (each : ∀ left right pairs rebuild, meeting left right = .each pairs rebuild →
      (∀ pair ∈ pairs, motive pair.1 pair.2 (broadcast site operation pair.1 pair.2)) →
      motive left right
        (rebuild <$> pairs.mapM fun pair => broadcast site operation pair.1 pair.2))
    (left right : Value) : motive left right (broadcast site operation left right) := by
  induction left, right using meeting_induction with
  | step left right ih =>
    cases hname : left.name?.or right.name? with
    | some s =>
      rw [broadcast_of_name site operation hname]
      exact name left right s
    | none =>
      obtain ⟨hleft, hright⟩ := Option.or_eq_none_iff.mp hname
      rw [broadcast_eq site operation hleft hright]
      cases hmeeting : meeting left right with
      | scalars => exact scalars left right
      | refused cause => exact refused left right cause hmeeting
      | each pairs rebuild =>
        exact each left right pairs rebuild hmeeting (ih pairs rebuild hmeeting)

theorem broadcast_ints (a b : Int) :
    broadcast site operation (.int a) (.int b) = operation (.int a) (.int b) :=
  broadcast_eq site operation rfl rfl

end

end Arithmetic

open Arithmetic

/-! ## Operators with one operand -/

/-- The ways of an operation that reaches into arrays. -/
@[elab_as_elim]
theorem items_induction {f : Value → Attempt Value} {motive : Value → Attempt Value → Prop}
    (hitems : ∀ items, f (.array items) = .array <$> items.mapM f)
    (single : ∀ value, (∀ items, value ≠ .array items) → motive value (f value))
    (array : ∀ items, (∀ item ∈ items, motive item (f item)) →
      motive (.array items) (.array <$> items.mapM f))
    (value : Value) : motive value (f value) := by
  induction value using parts_induction with
  | scalar value hscalar =>
    refine single value ?_
    rintro items rfl
    cases hscalar
  | array items ih => exact hitems items ▸ array items ih
  | object entries => exact single _ nofun

section

variable (site : Site) (items : List Value)

theorem negate_array : negate site (.array items) = .array <$> items.mapM (negate site) :=
  congrArg (Value.array <$> ·) (Attempt.eq_mapM (negateItems site) rfl (fun _ _ => rfl) items)

theorem complement_array :
    complement site (.array items) = .array <$> items.mapM (complement site) :=
  congrArg (Value.array <$> ·) (Attempt.eq_mapM (complementItems site) rfl (fun _ _ => rfl) items)

theorem factorial_array :
    factorial site (.array items) = .array <$> items.mapM (factorial site) :=
  congrArg (Value.array <$> ·) (Attempt.eq_mapM (factorialItems site) rfl (fun _ _ => rfl) items)

end

/-! ## Functions of numbers -/

section

variable (site : Site) (f : Value → Attempt Value)

theorem mapNumbers_array (items : List Value) :
    mapNumbers site f (.array items) = .array <$> items.mapM (mapNumbers site f) :=
  congrArg (Value.array <$> ·) (Attempt.eq_mapM (mapNumbersIn site f) rfl (fun _ _ => rfl) items)

theorem mapNumbers_object (entries : Entries) :
    mapNumbers site f (.object entries) =
      underKeys entries <$> entries.mapM fun entry => mapNumbers site f entry.2 := by
  have hentries : mapNumbersAmong site f entries = (entries.map (·.1)).zip <$>
      entries.mapM fun entry => mapNumbers site f entry.2 := by
    induction entries with
    | nil => rfl
    | cons entry entries ih => rw [mapNumbersAmong, List.mapM_cons, ih, cons_zip, List.map_cons]
  rw [mapNumbers, hentries]
  exact object_eq entries _

/-- The ways of a function of numbers: it refuses, gets a number, or goes from part to part. -/
@[elab_as_elim]
theorem mapNumbers_induction {motive : Value → Attempt Value → Prop}
    (refused : ∀ value, motive value (Attempt.fail site (.valueType .number)))
    (number : ∀ value, value.isNumeric = true → motive value (f value))
    (array : ∀ items, (∀ item ∈ items, motive item (mapNumbers site f item)) →
      motive (.array items) (.array <$> items.mapM (mapNumbers site f)))
    (object : ∀ entries : Entries,
      (∀ entry ∈ entries, motive entry.2 (mapNumbers site f entry.2)) →
      motive (.object entries)
        (underKeys entries <$> entries.mapM fun entry => mapNumbers site f entry.2))
    (value : Value) : motive value (mapNumbers site f value) := by
  induction value using parts_induction with
  | scalar value hscalar =>
    cases value with
    | int | float => exact number _ rfl
    | array | object => cases hscalar
    | _ => exact refused _
  | array items ih => exact mapNumbers_array site f items ▸ array items ih
  | object entries ih => exact mapNumbers_object site f entries ▸ object entries ih

end

end Calculator
