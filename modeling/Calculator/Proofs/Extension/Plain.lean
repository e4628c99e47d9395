import Mathlib.Data.List.Forall2
import Calculator.Extension.Plain
import Calculator.Proofs.Demand.Value
import Calculator.Proofs.Function.Merging
import Calculator.Proofs.Number.Equality
import Calculator.Proofs.Value.Symmetry

/-!
# Values as plain data

A value comes back from plain data as it was, if the data can tell its keys apart. Data does that by
the exact number. Values tell fewer keys apart: a boolean equals every number of its truth, and an
integer the float next to it. So keys that are unequal as values are never one key as data.
-/

namespace Calculator

open Number

namespace Value

/-! ## Values that data can hold -/

/-- A key that data has too, with an order of its own for all of its numbers. -/
def isPlainKey : Value → Bool
  | none | bool _ | string _ => true
  | int n => inRange n
  | float x => !x.isNaN
  | array _ | object _ | name _ => false

mutual

/-- All keys inside of the value are keys that data has. -/
def hasPlainKeys : Value → Bool
  | array items => allHavePlainKeys items
  | object entries => entriesHavePlainKeys entries
  | none | bool _ | int _ | float _ | string _ | name _ => true

def allHavePlainKeys : List Value → Bool
  | [] => true
  | item :: items => item.hasPlainKeys && allHavePlainKeys items

def entriesHavePlainKeys : Entries → Bool
  | [] => true
  | (key, value) :: entries =>
    key.isPlainKey && value.hasPlainKeys && entriesHavePlainKeys entries

end

theorem allHavePlainKeys_iff {items : List Value} :
    allHavePlainKeys items = true ↔ ∀ item ∈ items, item.hasPlainKeys = true := by
  induction items with
  | nil => simp [allHavePlainKeys]
  | cons item items ih => simp [allHavePlainKeys, ih]

theorem entriesHavePlainKeys_iff {entries : Entries} : entriesHavePlainKeys entries = true ↔
    ∀ entry ∈ entries, entry.1.isPlainKey = true ∧ entry.2.hasPlainKeys = true := by
  induction entries with
  | nil => simp [entriesHavePlainKeys]
  | cons entry entries ih => simp [entriesHavePlainKeys, ih]

/-- The value has no names in it, and the keys of each object are told apart. -/
structure Portable (v : Value) : Prop where
  resolved : v.meets .resolved = true
  distinct : v.meets .distinctKeys = true
  plainKeys : v.hasPlainKeys = true

namespace Portable

variable {members : List Value} {entries : Entries}

theorem items (h : (array members).Portable) : ∀ item ∈ members, item.Portable := fun item hitem =>
  ⟨meets_array.mp h.resolved item hitem, meets_array.mp h.distinct item hitem,
    allHavePlainKeys_iff.mp h.plainKeys item hitem⟩

theorem keys (h : (object entries).Portable) : ∀ entry ∈ entries, entry.1.isPlainKey = true :=
  fun entry hentry => (entriesHavePlainKeys_iff.mp h.plainKeys entry hentry).1

theorem values (h : (object entries).Portable) : ∀ entry ∈ entries, entry.2.Portable :=
  fun entry hentry =>
  ⟨(meets_object.mp h.resolved).values entry hentry,
    (meets_object.mp h.distinct).values entry hentry,
    (entriesHavePlainKeys_iff.mp h.plainKeys entry hentry).2⟩

theorem distinctEntries (h : (object entries).Portable) : entries.Distinct :=
  (meets_object.mp h.distinct).distinct rfl

end Portable

/-! ## Keys that are one key as data -/

section

variable {b c : Bool} {n k : Int} {x : Float}

theorem same_ofInt_iff : (Exact.ofInt n).same (.ofInt k) = true ↔ n = k := by
  constructor
  · intro h
    have hk := Exact.rational?_of_same (Exact.rational?_ofInt n) h
    rw [Exact.rational?_ofInt, Option.some_inj] at hk
    exact_mod_cast hk.symm
  · rintro rfl
    exact Exact.same_of_rational? (Exact.rational?_ofInt n) (Exact.rational?_ofInt n)

theorem same_ofInt_exact_iff :
    (Exact.ofInt n).same (exact x) = true ↔ rational? x = some (n : ℚ) := by
  rw [← rational?_exact]
  exact ⟨Exact.rational?_of_same (Exact.rational?_ofInt n),
    Exact.same_of_rational? (Exact.rational?_ofInt n)⟩

theorem equal_bool_int (h : n = if b then 1 else 0) : (bool b).equal (int n) = true := by
  subst h
  rw [equal, sameAs]
  cases b <;> rfl

theorem equal_bool_float (h : rational? x = some ((if b then 1 else 0 : Int) : ℚ)) :
    (bool b).equal (float x) = true := by
  have hzero := @beq_zero_iff x
  rw [h] at hzero
  rw [equal, sameAs, bne]
  cases b
  case false =>
    rw [hzero.mpr (by simp)]
    rfl
  case true =>
    rw [Bool.eq_false_iff.mpr (mt hzero.mp (by simp))]
    rfl

theorem equal_int_float (hn : inRange n = true) (h : rational? x = some (n : ℚ)) :
    (int n).equal (float x) = true := by
  rw [equal, sameAs, sameNumber, toFloat?, if_pos (isFinite_ofInt hn)]
  exact ofInt_beq_of_rational? hn h

/-- The form that a key has as data. -/
inductive KeyForm : Value → Plain → Prop
  | none : KeyForm none .none
  | bool (b : Bool) : KeyForm (bool b) (.bool b)
  | int (n : Int) (h : inRange n = true) : KeyForm (int n) (.int n)
  | float (x : Float) : KeyForm (float x) (.float x)
  | string (s : String) : KeyForm (string s) (.string s)

theorem KeyForm.isCompound {key : Value} {plain : Plain} (h : KeyForm key plain) :
    key.isCompound = false := by
  cases h <;> rfl

theorem exists_keyForm {key : Value} (h : key.isPlainKey = true) : ∃ plain, KeyForm key plain := by
  cases key with
  | none => exact ⟨_, .none⟩
  | bool b => exact ⟨_, .bool b⟩
  | int n => exact ⟨_, .int n h⟩
  | float x => exact ⟨_, .float x⟩
  | string s => exact ⟨_, .string s⟩
  | array | object | name => cases h

theorem KeyForm.equal_comm {a b : Value} {p q : Plain} (ha : KeyForm a p) (hb : KeyForm b q) :
    a.equal b = b.equal a := by
  cases ha <;> cases hb <;> simp [equal, sameAs, float_beq_comm, Bool.beq_comm]

theorem equal_of_same_bool {newer : Value} {q : Plain} {a : Exact} (hnewer : KeyForm newer q)
    (hq : q.number? = some a) (h : (Exact.ofInt (if b then 1 else 0)).same a = true) :
    (bool b).equal newer = true := by
  cases hnewer with
  | none | string => cases hq
  | bool c =>
    cases hq
    have hbits := same_ofInt_iff.mp h
    rw [equal, sameAs, beq_iff_eq]
    grind
  | int k =>
    cases hq
    exact equal_bool_int (same_ofInt_iff.mp h).symm
  | float x =>
    cases hq
    exact equal_bool_float (same_ofInt_exact_iff.mp h)

theorem equal_of_same_int {newer : Value} {q : Plain} {a : Exact} (hn : inRange n = true)
    (hnewer : KeyForm newer q) (hq : q.number? = some a) (h : (Exact.ofInt n).same a = true) :
    (int n).equal newer = true := by
  cases hnewer with
  | none | string => cases hq
  | bool c =>
    cases hq
    rw [KeyForm.equal_comm (.int n hn) (.bool c)]
    exact equal_bool_int (same_ofInt_iff.mp h)
  | int k =>
    cases hq
    rw [equal, sameAs, beq_iff_eq]
    exact same_ofInt_iff.mp h
  | float x =>
    cases hq
    exact equal_int_float hn (same_ofInt_exact_iff.mp h)

/-- Numbers that are the same without loss are equal after rounding too. -/
theorem equal_of_same {older newer : Value} {p q : Plain} {a b : Exact} (holder : KeyForm older p)
    (hnewer : KeyForm newer q) (hp : p.number? = some a) (hq : q.number? = some b)
    (h : a.same b = true) : older.equal newer = true := by
  cases holder with
  | none | string => cases hp
  | bool c =>
    cases hp
    exact equal_of_same_bool hnewer hq h
  | int n hn =>
    cases hp
    exact equal_of_same_int hn hnewer hq h
  | float x =>
    have hback := (Exact.same_comm b a).trans h
    rw [KeyForm.equal_comm (.float x) hnewer]
    cases hnewer with
    | none | string => cases hq
    | bool c =>
      cases hq
      exact equal_of_same_bool (.float x) hp hback
    | int k hk =>
      cases hq
      exact equal_of_same_int hk (.float x) hp hback
    | float y =>
      cases hp
      cases hq
      rw [equal, sameAs]
      exact beq_iff_same.mpr hback

theorem number?_of_sameKey {p q : Plain} {a : Exact} (hp : p.number? = some a)
    (h : p.sameKey q = true) : ∃ b, q.number? = some b ∧ a.same b = true := by
  cases p with
  | bool | int | float =>
    cases hp
    cases q with
    | bool | int | float =>
      rw [Plain.sameKey] at h
      · exact ⟨_, rfl, h⟩
      all_goals simp
    | _ => simp [Plain.sameKey, Plain.number?] at h
  | _ => cases hp

/-- What is one key as data is one key as values. -/
theorem equal_of_sameKey {older newer : Value} {p q : Plain} (holder : KeyForm older p)
    (hnewer : KeyForm newer q) (h : p.sameKey q = true) : older.equal newer = true := by
  cases hnumber : p.number? with
  | some a =>
    obtain ⟨b, hb, hsame⟩ := number?_of_sameKey hnumber h
    exact equal_of_same holder hnewer hnumber hb hsame
  | none =>
    cases holder with
    | bool | int | float => cases hnumber
    | none =>
      cases hnewer with
      | none => rw [equal, sameAs]
      | _ => simp [Plain.sameKey, Plain.number?] at h
    | string s =>
      cases hnewer with
      | string t => rwa [equal, sameAs]
      | _ => simp [Plain.sameKey, Plain.number?] at h

end

end Value

/-! ## There and back -/

namespace Plain

/-- The data is the form of the value, and is read as the value. -/
structure Stands (plain : Plain) (v : Value) : Prop where
  ofValue : Plain.ofValue v = .ok plain
  toValue : plain.toValue = .ok v

theorem KeyForm.stands {key : Value} {plain : Plain} (h : key.KeyForm plain) :
    plain.Stands key := by
  cases h <;> exact ⟨rfl, rfl⟩

/-- The same for a key and what it leads to. -/
structure EntryStands (pair : Plain × Plain) (entry : Value × Value) : Prop where
  key : entry.1.KeyForm pair.1
  value : pair.2.Stands entry.2

theorem Stands.array {plains : List Plain} {items : List Value}
    (h : List.Forall₂ Stands plains items) : (list plains).Stands (.array items) := by
  have hlists : ofValues items = .ok plains ∧ toValues plains = .ok items := by
    induction h with
    | nil => exact ⟨rfl, rfl⟩
    | cons hitem _ ih =>
      rw [ofValues, toValues, hitem.ofValue, hitem.toValue, ih.1, ih.2]
      exact ⟨rfl, rfl⟩
  constructor
  · rw [Plain.ofValue, hlists.1]
    rfl
  · rw [Plain.toValue, hlists.2]
    rfl

variable {pairs : List (Plain × Plain)} {entries : Entries}

theorem exists_entry (h : List.Forall₂ EntryStands pairs entries) {pair : Plain × Plain}
    (hpair : pair ∈ pairs) : ∃ entry ∈ entries, EntryStands pair entry := by
  induction h with
  | nil => cases hpair
  | cons hentry _ ih =>
    rcases List.mem_cons.mp hpair with rfl | hrest
    · exact ⟨_, List.mem_cons_self, hentry⟩
    · obtain ⟨entry, hmem, hstands⟩ := ih hrest
      exact ⟨entry, List.mem_cons_of_mem _ hmem, hstands⟩

theorem distinct_pairs (h : List.Forall₂ EntryStands pairs entries)
    (hdistinct : Entries.Distinct entries) :
    pairs.Pairwise fun older newer => older.1.sameKey newer.1 = false := by
  induction h with
  | nil => exact .nil
  | cons hentry hrest ih =>
    obtain ⟨hfirst, hothers⟩ := List.pairwise_cons.mp hdistinct
    refine List.pairwise_cons.mpr ⟨fun newer hnewer => ?_, ih hothers⟩
    obtain ⟨other, hother, hstands⟩ := exists_entry hrest hnewer
    refine Bool.eq_false_iff.mpr fun hsame => Bool.eq_false_iff.mp (hfirst other hother) ?_
    exact Value.equal_of_sameKey hentry.key hstands.key hsame

theorem insert_of_new {key item : Plain} (h : ∀ pair ∈ pairs, pair.1.sameKey key = false) :
    insert key item pairs = pairs ++ [(key, item)] := by
  induction pairs with
  | nil => rfl
  | cons pair pairs ih =>
    obtain ⟨hpair, hpairs⟩ := List.forall_mem_cons.mp h
    rw [insert, hpair, if_neg Bool.false_ne_true, ih hpairs, List.cons_append]

theorem ofPairs_of_distinct
    (h : pairs.Pairwise fun older newer => older.1.sameKey newer.1 = false) :
    ofPairs pairs = dict pairs := by
  rw [ofPairs]
  refine congrArg dict ?_
  induction pairs using List.reverseRecOn with
  | nil => rfl
  | append_singleton pairs last ih =>
    obtain ⟨hpairs, -, hlast⟩ := List.pairwise_append.mp h
    rw [List.foldl_concat, ih hpairs, insert_of_new fun pair hpair =>
      hlast pair hpair last (List.mem_singleton_self last)]

theorem Stands.object (h : List.Forall₂ EntryStands pairs entries)
    (hdistinct : Entries.Distinct entries) : (dict pairs).Stands (.object entries) := by
  have hlists : ofEntries entries = .ok pairs ∧ toEntries pairs = .ok entries := by
    clear hdistinct
    induction h with
    | nil => exact ⟨rfl, rfl⟩
    | @cons pair entry pairs entries hentry _ ih =>
      have hkey := KeyForm.stands hentry.key
      rw [ofEntries, toEntries, hkey.ofValue, hkey.toValue, hentry.value.ofValue,
        hentry.value.toValue, ih.1, ih.2, hentry.key.isCompound]
      exact ⟨rfl, rfl⟩
  constructor
  · rw [Plain.ofValue, hlists.1]
    exact congrArg Except.ok (ofPairs_of_distinct (distinct_pairs h hdistinct))
  · rw [Plain.toValue, hlists.2]
    exact congrArg (Except.ok ∘ Value.object) (Entries.insertAll_nil hdistinct)

mutual

theorem exists_stands : ∀ v : Value, v.Portable → ∃ plain : Plain, plain.Stands v
  | .none, _ | .bool _, _ | .int _, _ | .float _, _ | .string _, _ => ⟨_, rfl, rfl⟩
  | .name _, h => absurd rfl (Value.meets_name.mp h.resolved)
  | .array items, h => by
    obtain ⟨plains, hplains⟩ := exists_items items h.items
    exact ⟨_, .array hplains⟩
  | .object entries, h => by
    obtain ⟨pairs, hpairs⟩ := exists_pairs entries h.keys h.values
    exact ⟨_, .object hpairs h.distinctEntries⟩

theorem exists_items : ∀ items : List Value, (∀ item ∈ items, item.Portable) →
    ∃ plains, List.Forall₂ Stands plains items
  | [], _ => ⟨[], .nil⟩
  | item :: items, h => by
    obtain ⟨hitem, hitems⟩ := List.forall_mem_cons.mp h
    obtain ⟨plain, hplain⟩ := exists_stands item hitem
    obtain ⟨plains, hplains⟩ := exists_items items hitems
    exact ⟨plain :: plains, .cons hplain hplains⟩

theorem exists_pairs : ∀ entries : Entries, (∀ entry ∈ entries, entry.1.isPlainKey = true) →
    (∀ entry ∈ entries, entry.2.Portable) → ∃ pairs, List.Forall₂ EntryStands pairs entries
  | [], _, _ => ⟨[], .nil⟩
  | (_, leaf) :: entries, hkeys, hvalues => by
    obtain ⟨hkey, hkeys⟩ := List.forall_mem_cons.mp hkeys
    obtain ⟨hleaf, hvalues⟩ := List.forall_mem_cons.mp hvalues
    obtain ⟨plainKey, hform⟩ := Value.exists_keyForm hkey
    obtain ⟨plain, hplain⟩ := exists_stands leaf hleaf
    obtain ⟨pairs, hpairs⟩ := exists_pairs entries hkeys hvalues
    exact ⟨(plainKey, plain) :: pairs, .cons ⟨hform, hplain⟩ hpairs⟩

end

/-- What goes out as plain data comes back as it was. -/
theorem toValue_ofValue (v : Value) (h : v.Portable) :
    ∃ plain, ofValue v = .ok plain ∧ plain.toValue = .ok v := by
  obtain ⟨plain, hstands⟩ := exists_stands v h
  exact ⟨plain, hstands.ofValue, hstands.toValue⟩

/-- Integers stay apart from floats and from booleans, and the keys keep their order. -/
theorem toValue_ofValue_object :
    let v : Value := .array [.object [(.string "b", .array [.bool true, .int 1, .float 1.0]),
      (.int 2, .none), (.float 2.5, .object [(.bool true, .int 9223372036854775808),
        (.none, .float (0.0 / 0.0)), (.int 0, .string "")]), (.string "a", .int (-1))]]
    v.Portable ∧ ∃ plain, ofValue v = .ok plain ∧ plain.toValue = .ok v := by
  intro v
  have h : v.Portable := ⟨by decide, by decide +kernel, by decide⟩
  exact ⟨h, toValue_ofValue v h⟩

end Plain

end Calculator
