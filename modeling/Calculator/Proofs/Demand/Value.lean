import Calculator.Failure
import Calculator.Value.Conversion
import Calculator.Value.Indexing

/-!
# What is demanded of values

A demand is made of a value and of all that is inside of it: items, keys and the values under the
keys. What is taken out of a value, or put together from such values, meets the demand again.
-/

namespace Calculator

inductive Demand where
  /-- There is no name that stands for nothing. -/
  | resolved
  /-- No key of an object equals one that came after it. -/
  | distinctKeys
  /-- No integer has more than sixty-four bits. -/
  | inRange
  deriving DecidableEq, Repr

/-- No key equals one that came after it. -/
def Entries.Distinct (entries : Entries) : Prop :=
  entries.Pairwise fun older newer => older.1.equal newer.1 = false

instance (entries : Entries) : Decidable (Entries.Distinct entries) :=
  inferInstanceAs (Decidable (List.Pairwise _ _))

namespace Value

mutual

/-- The value and all that is inside of it are as demanded. -/
def meets (demand : Demand) : Value → Bool
  | int n => demand != .inRange || Calculator.inRange n
  | name _ => demand != .resolved
  | array items => allMeet demand items
  | object entries =>
    (demand != .distinctKeys || decide (Entries.Distinct entries)) && entriesMeet demand entries
  | none | bool _ | float _ | string _ => true

def allMeet (demand : Demand) : List Value → Bool
  | [] => true
  | item :: items => meets demand item && allMeet demand items

def entriesMeet (demand : Demand) : Entries → Bool
  | [] => true
  | (key, value) :: entries => meets demand key && meets demand value && entriesMeet demand entries

end

end Value

/-- The entries of an object that meets a demand. -/
structure Entries.Meet (demand : Demand) (entries : Entries) : Prop where
  distinct : demand = .distinctKeys → Entries.Distinct entries
  keys : ∀ entry ∈ entries, entry.1.meets demand
  values : ∀ entry ∈ entries, entry.2.meets demand

namespace Value

variable {demand : Demand}

@[simp] theorem meets_none : none.meets demand = true := rfl

@[simp] theorem meets_bool (b : Bool) : (bool b).meets demand = true := rfl

@[simp] theorem meets_float (x : Float) : (float x).meets demand = true := rfl

@[simp] theorem meets_string (s : String) : (string s).meets demand = true := rfl

theorem meets_int {n : Int} : (int n).meets demand = true ↔
    (demand = .inRange → Calculator.inRange n = true) := by
  cases demand <;> simp [meets]

theorem meets_name {s : String} : (name s).meets demand = true ↔ demand ≠ .resolved := by
  simp [meets]

theorem allMeet_iff {items : List Value} :
    allMeet demand items = true ↔ ∀ item ∈ items, item.meets demand := by
  induction items with
  | nil => simp [allMeet]
  | cons item items ih => simp [allMeet, ih]

@[simp] theorem meets_array {items : List Value} :
    (array items).meets demand = true ↔ ∀ item ∈ items, item.meets demand := allMeet_iff

theorem entriesMeet_iff {entries : Entries} : entriesMeet demand entries = true ↔
    (∀ entry ∈ entries, entry.1.meets demand) ∧ ∀ entry ∈ entries, entry.2.meets demand := by
  induction entries with
  | nil => simp [entriesMeet]
  | cons entry entries ih =>
    simp only [entriesMeet, Bool.and_eq_true, ih, List.forall_mem_cons]
    constructor
    · rintro ⟨⟨hkey, hvalue⟩, hkeys, hvalues⟩
      exact ⟨⟨hkey, hkeys⟩, hvalue, hvalues⟩
    · rintro ⟨⟨hkey, hkeys⟩, hvalue, hvalues⟩
      exact ⟨⟨hkey, hvalue⟩, hkeys, hvalues⟩

theorem meets_object {entries : Entries} :
    (object entries).meets demand = true ↔ Entries.Meet demand entries := by
  simp only [meets, Bool.and_eq_true, Bool.or_eq_true, bne_iff_ne, decide_eq_true_eq,
    entriesMeet_iff]
  constructor
  · rintro ⟨hdistinct, hkeys, hvalues⟩
    exact ⟨fun hdemand => hdistinct.resolve_left (not_not_intro hdemand), hkeys, hvalues⟩
  · rintro ⟨hdistinct, hkeys, hvalues⟩
    exact ⟨Decidable.not_or_of_imp hdistinct, hkeys, hvalues⟩

end Value

/-! ## Entries -/

namespace Entries

variable {demand : Demand} {entries others : Entries} {key value : Value}

theorem Meet.nil (demand : Demand) : Meet demand [] :=
  ⟨fun _ => List.Pairwise.nil, by simp, by simp⟩

theorem mem_insert {entry : Value × Value} (h : entry ∈ insert entries key value) :
    (entry.1 = key ∨ ∃ old ∈ entries, old.1 = entry.1) ∧
      (entry.2 = value ∨ ∃ old ∈ entries, old.2 = entry.2) := by
  induction entries with
  | nil =>
    rw [insert, List.mem_singleton] at h
    subst h
    exact ⟨.inl rfl, .inl rfl⟩
  | cons first rest ih =>
    rw [insert] at h
    split at h <;> rcases List.mem_cons.mp h with rfl | h
    · exact ⟨.inr ⟨first, List.mem_cons_self, rfl⟩, .inl rfl⟩
    · have hentry := List.mem_cons_of_mem first h
      exact ⟨.inr ⟨entry, hentry, rfl⟩, .inr ⟨entry, hentry, rfl⟩⟩
    · exact ⟨.inr ⟨entry, List.mem_cons_self, rfl⟩, .inr ⟨entry, List.mem_cons_self, rfl⟩⟩
    · have hrest := ih h
      exact ⟨hrest.1.imp_right fun ⟨old, hold, heq⟩ => ⟨old, List.mem_cons_of_mem _ hold, heq⟩,
        hrest.2.imp_right fun ⟨old, hold, heq⟩ => ⟨old, List.mem_cons_of_mem _ hold, heq⟩⟩

/-- A key is added at the end only after every key before it has been found unequal to it. -/
theorem distinct_insert (h : Distinct entries) (key value : Value) :
    Distinct (insert entries key value) := by
  induction entries with
  | nil => exact List.pairwise_singleton _ _
  | cons first rest ih =>
    obtain ⟨hfirst, hrest⟩ := List.pairwise_cons.mp h
    rw [insert]
    split
    case isTrue => exact List.pairwise_cons.mpr ⟨hfirst, hrest⟩
    case isFalse hkey =>
      refine List.pairwise_cons.mpr ⟨?_, ih hrest⟩
      intro entry hentry
      rcases (mem_insert hentry).1 with heq | ⟨old, hold, heq⟩
      · rw [heq]
        exact Bool.not_eq_true _ ▸ hkey
      · rw [← heq]
        exact hfirst old hold

theorem Meet.insert (h : Meet demand entries) (hkey : key.meets demand)
    (hvalue : value.meets demand) : Meet demand (insert entries key value) := by
  constructor
  case distinct => exact fun hdemand => distinct_insert (h.distinct hdemand) key value
  case keys =>
    intro entry hentry
    rcases (mem_insert hentry).1 with heq | ⟨old, hold, heq⟩
    · rw [heq]
      exact hkey
    · rw [← heq]
      exact h.keys old hold
  case values =>
    intro entry hentry
    rcases (mem_insert hentry).2 with heq | ⟨old, hold, heq⟩
    · rw [heq]
      exact hvalue
    · rw [← heq]
      exact h.values old hold

theorem Meet.insertAll (h : Meet demand entries) (hkeys : ∀ entry ∈ others, entry.1.meets demand)
    (hvalues : ∀ entry ∈ others, entry.2.meets demand) :
    Meet demand (insertAll entries others) := by
  induction others generalizing entries with
  | nil => exact h
  | cons entry others ih =>
    rw [List.forall_mem_cons] at hkeys hvalues
    exact ih (h.insert hkeys.1 hvalues.1) hkeys.2 hvalues.2

theorem Meet.sublist (h : Meet demand entries) (hsub : others.Sublist entries) :
    Meet demand others :=
  ⟨fun hdemand => (h.distinct hdemand).sublist hsub, fun entry hentry =>
    h.keys entry (hsub.subset hentry), fun entry hentry => h.values entry (hsub.subset hentry)⟩

theorem Meet.erase (h : Meet demand entries) (key : Value) : Meet demand (erase entries key) :=
  h.sublist List.eraseP_sublist

theorem Meet.find? (h : Meet demand entries) (hfound : find? entries key = some value) :
    value.meets demand := by
  obtain ⟨entry, hentry, rfl⟩ := Option.map_eq_some_iff.mp hfound
  exact h.values entry (List.mem_of_find?_eq_some hentry)

/-- New values under old keys, one by one. -/
theorem Meet.of_keys (h : Meet demand entries)
    (hkeys : (others.map (·.1)).Sublist (entries.map (·.1)))
    (hvalues : ∀ entry ∈ others, entry.2.meets demand) : Meet demand others := by
  have hpairwise (entries : Entries) : Distinct entries ↔
      (entries.map (·.1)).Pairwise fun older newer => older.equal newer = false := by
    rw [List.pairwise_map]
    rfl
  constructor
  case distinct =>
    intro hdemand
    rw [hpairwise]
    exact ((hpairwise entries).mp (h.distinct hdemand)).sublist hkeys
  case keys =>
    intro entry hentry
    obtain ⟨old, hold, heq⟩ := List.mem_map.mp (hkeys.subset (List.mem_map_of_mem hentry))
    exact heq ▸ h.keys old hold
  case values => exact hvalues

end Entries

/-! ## Items -/

namespace Value

variable {demand : Demand} {value : Value}

theorem items_meet (h : value.meets demand) : ∀ item ∈ value.items, item.meets demand := by
  cases value with
  | none => simp [items]
  | array items => exact meets_array.mp h
  | object entries =>
    rw [items, List.forall_mem_map]
    exact (meets_object.mp h).values
  | _ =>
    intro item hitem
    rw [List.mem_singleton.mp hitem]
    exact h

/-- The places of items may be out of range when there are too many of them. -/
theorem entries_meet (hdemand : demand ≠ .inRange) (h : value.meets demand) :
    ∀ entry ∈ value.entries, entry.1.meets demand := by
  have hplaces : ∀ entry ∈ Entries.ofItems value.items, entry.1.meets demand := by
    rw [Entries.ofItems, List.forall_mem_map]
    intro place _
    exact meets_int.mpr fun h => absurd h hdemand
  cases value with
  | object entries => exact (meets_object.mp h).keys
  | _ => exact hplaces

end Value

/-! ## Attempts -/

/-- Whatever the attempt comes to is as said. -/
def Attempt.Yields {α : Type} (attempt : Attempt α) (post : α → Prop) : Prop :=
  ∀ a, attempt = .ok a → post a

namespace Attempt.Yields

variable {α β : Type} {post : α → Prop} {next : β → Prop}

theorem ok {a : α} (h : post a) : Attempt.Yields (.ok a) post := by
  rintro _ ⟨⟩
  exact h

theorem error {failure : Failure} : Attempt.Yields (.error failure) post := by
  rintro _ ⟨⟩

theorem fail {site : Site} {cause : Cause} : (Attempt.fail site cause).Yields post := error

theorem bind {attempt : Attempt α} {f : α → Attempt β} (h : attempt.Yields post)
    (hnext : ∀ a, post a → (f a).Yields next) : Attempt.Yields (attempt >>= f) next := by
  intro b hb
  obtain ⟨a, ha, hb⟩ := Attempt.bind_eq_ok.mp hb
  exact hnext a (h a ha) b hb

theorem any (attempt : Attempt α) : attempt.Yields fun _ => True := fun _ _ => trivial

theorem mono {attempt : Attempt α} {weaker : α → Prop} (h : attempt.Yields post)
    (himp : ∀ a, post a → weaker a) : attempt.Yields weaker :=
  fun a ha => himp a (h a ha)

end Attempt.Yields

/-! ## Looking things up -/

namespace Value

variable {demand : Demand} {site : Site}

theorem itemAt_yields {items : List Value} (h : ∀ item ∈ items, item.meets demand)
    (index : Value) : (itemAt site items index).Yields (·.meets demand) := by
  refine .bind (.any _) fun place _ => ?_
  split
  · exact .ok (h _ (List.mem_of_getElem? ‹_›))
  · exact .fail

theorem entryAt_yields {entries : Entries} (h : Entries.Meet demand entries) (key : Value) :
    (entryAt site entries key).Yields (·.meets demand) := by
  unfold entryAt
  split
  · exact .ok (h.find? ‹_›)
  · exact .fail

theorem lookup_yields {target : Value} (h : target.meets demand) (index : Value) :
    (lookup site target index).Yields (·.meets demand) := by
  cases target with
  | array items => exact itemAt_yields (meets_array.mp h) index
  | object entries => exact entryAt_yields (meets_object.mp h) index
  | string s =>
    apply itemAt_yields
    simp
  | _ => exact .fail

end Value

end Calculator
