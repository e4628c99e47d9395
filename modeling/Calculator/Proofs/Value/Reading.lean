import Calculator.Value.Conversion
import Calculator.Value.Indexing

/-!
# What an index reads

An index reads one place of an array or object, or none. Looking a key up, putting a value under it
and taking it out all act on that place.
-/

namespace Calculator

/-! ## Keys -/

namespace Entries

variable {entries others : Entries} {key value : Value} {place : Nat}

/-- The first entry whose key equals the key stands at the place. -/
structure First (entries : Entries) (key : Value) (place : Nat) : Prop where
  lt : place < entries.length
  equal : entries[place].1.equal key = true
  before : ∀ (earlier : Nat) (_ : earlier < place), entries[earlier].1.equal key = false

theorem first_zero {entry : Value × Value} :
    First (entry :: entries) key 0 ↔ entry.1.equal key = true := by
  constructor
  · exact First.equal
  · exact fun h => ⟨Nat.succ_pos _, h, fun _ hearlier => absurd hearlier (Nat.not_lt_zero _)⟩

theorem first_succ {entry : Value × Value} :
    First (entry :: entries) key (place + 1) ↔
      entry.1.equal key = false ∧ First entries key place := by
  constructor
  · rintro ⟨hlt, hequal, hbefore⟩
    refine ⟨hbefore 0 (Nat.succ_pos _), Nat.lt_of_succ_lt_succ hlt, hequal, ?_⟩
    exact fun earlier hearlier => hbefore (earlier + 1) (Nat.succ_lt_succ hearlier)
  · rintro ⟨hentry, hlt, hequal, hbefore⟩
    refine ⟨Nat.succ_lt_succ hlt, hequal, fun earlier hearlier => ?_⟩
    cases earlier with
    | zero => exact hentry
    | succ earlier => exact hbefore earlier (Nat.lt_of_succ_lt_succ hearlier)

theorem First.unique {place' : Nat} (h : First entries key place) (h' : First entries key place') :
    place = place' := by
  rcases Nat.lt_trichotomy place place' with hlt | heq | hlt
  · cases (h'.before place hlt).symm.trans h.equal
  · exact heq
  · cases (h.before place' hlt).symm.trans h'.equal

theorem exists_first_or (entries : Entries) (key : Value) :
    (∃ place, First entries key place) ∨ ∀ entry ∈ entries, entry.1.equal key = false := by
  induction entries with
  | nil => exact .inr (List.forall_mem_nil _)
  | cons entry entries ih =>
    cases hentry : entry.1.equal key with
    | true => exact .inl ⟨0, first_zero.mpr hentry⟩
    | false =>
      refine ih.imp ?_ fun hnone => List.forall_mem_cons.mpr ⟨hentry, hnone⟩
      exact fun ⟨place, hfirst⟩ => ⟨place + 1, first_succ.mpr ⟨hentry, hfirst⟩⟩

/-- More entries behind the others, or other values under the same keys, change nothing. -/
theorem First.of_keys (h : First entries key place)
    (hkeys : entries.map (·.1) <+: others.map (·.1)) : First others key place := by
  have hlength : entries.length ≤ others.length := by simpa using hkeys.length_le
  have hkey (i : Nat) (hi : i < entries.length) : others[i].1 = entries[i].1 := by
    have hprefix := hkeys.getElem (i := i) (by simpa using hi)
    rw [List.getElem_map, List.getElem_map] at hprefix
    exact hprefix.symm
  refine ⟨Nat.lt_of_lt_of_le h.lt hlength, ?_, fun earlier hearlier => ?_⟩
  · rw [hkey place h.lt]
    exact h.equal
  · rw [hkey earlier (Nat.lt_trans hearlier h.lt)]
    exact h.before earlier hearlier

/-! ### What is done with a key -/

theorem First.find? (h : First entries key place) :
    find? entries key = some (entries.get ⟨place, h.lt⟩).2 := by
  refine Option.map_eq_some_iff.mpr ⟨entries.get ⟨place, h.lt⟩, ?_, rfl⟩
  refine List.find?_eq_some_iff_getElem.mpr ⟨h.equal, place, h.lt, rfl, fun earlier hearlier => ?_⟩
  rw [h.before earlier hearlier]
  rfl

theorem find?_eq_none (h : ∀ entry ∈ entries, entry.1.equal key = false) :
    find? entries key = none := by
  rw [find?, Option.map_eq_none_iff, List.find?_eq_none]
  exact fun entry hentry => Bool.not_eq_true _ ▸ h entry hentry

theorem find?_eq_some : find? entries key = some value ↔
    ∃ place, ∃ h : First entries key place, (entries.get ⟨place, h.lt⟩).2 = value := by
  constructor
  · intro hfound
    rcases exists_first_or entries key with ⟨place, hfirst⟩ | hnone
    · exact ⟨place, hfirst, Option.some.inj (hfirst.find?.symm.trans hfound)⟩
    · cases (find?_eq_none hnone).symm.trans hfound
  · rintro ⟨place, hfirst, rfl⟩
    exact hfirst.find?

theorem First.holds (h : First entries key place) : holds entries key = true :=
  List.any_eq_true.mpr ⟨_, List.getElem_mem h.lt, h.equal⟩

theorem holds_eq_false (h : ∀ entry ∈ entries, entry.1.equal key = false) :
    holds entries key = false :=
  List.any_eq_false.mpr fun entry hentry => Bool.not_eq_true _ ▸ h entry hentry

theorem First.insert (h : First entries key place) (value : Value) :
    insert entries key value = entries.set place ((entries.get ⟨place, h.lt⟩).1, value) := by
  induction entries generalizing place with
  | nil => exact absurd h.lt (Nat.not_lt_zero _)
  | cons entry entries ih =>
    cases place with
    | zero =>
      rw [Entries.insert, if_pos (first_zero.mp h)]
      rfl
    | succ place =>
      obtain ⟨hentry, hfirst⟩ := first_succ.mp h
      rw [Entries.insert, if_neg (Bool.not_eq_true _ ▸ hentry), ih hfirst]
      rfl

theorem insert_of_new (h : ∀ entry ∈ entries, entry.1.equal key = false) (value : Value) :
    insert entries key value = entries ++ [(key, value)] := by
  induction entries with
  | nil => rfl
  | cons entry entries ih =>
    rw [List.forall_mem_cons] at h
    rw [insert, if_neg (Bool.not_eq_true _ ▸ h.1), ih h.2]
    rfl

theorem First.erase (h : First entries key place) :
    erase entries key = entries.eraseIdx place := by
  unfold Entries.erase
  induction entries generalizing place with
  | nil => exact absurd h.lt (Nat.not_lt_zero _)
  | cons entry entries ih =>
    cases place with
    | zero => exact List.eraseP_cons_of_pos (first_zero.mp h)
    | succ place =>
      obtain ⟨hentry, hfirst⟩ := first_succ.mp h
      rw [List.eraseP_cons_of_neg (Bool.not_eq_true _ ▸ hentry), ih hfirst]
      rfl

end Entries

/-! ## Indexes -/

/-- The place in an array or object that an index reads. -/
inductive Reads : Value → Value → Nat → Prop where
  /-- Places are counted from the start, or back from the end. -/
  | item {items : List Value} {i : Int} {place : Nat} (hplace : place < items.length)
      (hindex : i = place ∨ i + items.length = place) : Reads (.array items) (.int i) place
  | entry {entries : Entries} {key : Value} {place : Nat} (hfirst : entries.First key place) :
      Reads (.object entries) key place

theorem Reads.unique {container index : Value} {place place' : Nat}
    (h : Reads container index place) (h' : Reads container index place') : place = place' := by
  cases h with
  | item hplace hindex =>
    cases h' with
    | item hplace' hindex' => omega
  | entry hfirst =>
    cases h' with
    | entry hfirst' => exact hfirst.unique hfirst'

namespace Value

variable {size place : Nat} {i : Int}

theorem place?_eq_some : place? size i = some place ↔
    place < size ∧ (i = place ∨ i + size = place) := by
  unfold place?
  dsimp only
  generalize hplace : (if i < 0 then i + size else i) = j
  have hj : i < 0 ∧ j = i + size ∨ 0 ≤ i ∧ j = i := by
    split at hplace <;> omega
  split
  case isTrue => rw [Option.some_inj]; omega
  case isFalse =>
    constructor
    · rintro ⟨⟩
    · omega

/-- Why an index reads nothing in an array or object. -/
def refusal (container index : Value) : Cause :=
  match container, index with
  | array _, int _ | object _, _ => .noSuchKey index
  | _, _ => .valueType .int

variable {container index : Value}

theorem placeOf_of_reads {items : List Value} (site : Site)
    (h : Reads (array items) index place) : placeOf site items.length index = .ok place := by
  cases h with
  | item hplace hindex =>
    simp only [placeOf, place?_eq_some.mpr ⟨hplace, hindex⟩]

theorem placeOf_of_not_reads {items : List Value} (site : Site)
    (h : ∀ place, ¬Reads (array items) index place) :
    placeOf site items.length index = Attempt.fail site (refusal (array items) index) := by
  cases index with
  | int i =>
    cases hplace : place? items.length i with
    | none => simp only [placeOf, hplace, refusal]
    | some place =>
      obtain ⟨hlt, hindex⟩ := place?_eq_some.mp hplace
      exact absurd (.item hlt hindex) (h place)
  | _ => rfl

theorem entryAt_of_first {entries : Entries} (site : Site) (h : entries.First index place) :
    entryAt site entries index = .ok (entries.get ⟨place, h.lt⟩).2 := by
  unfold entryAt
  rw [h.find?]

theorem entryAt_of_not_reads {entries : Entries} (site : Site)
    (h : ∀ place, ¬Reads (object entries) index place) :
    entryAt site entries index = Attempt.fail site (.noSuchKey index) := by
  rcases Entries.exists_first_or entries index with ⟨place, hfirst⟩ | hnone
  · exact absurd (.entry hfirst) (h place)
  · unfold entryAt
    rw [Entries.find?_eq_none hnone]

/-- What is read is the item at the place, or the value under the key that is there. -/
theorem lookup_of_reads (site : Site) (h : Reads container index place) :
    ∃ value, container.items[place]? = some value ∧ lookup site container index = .ok value := by
  cases h with
  | @item items i _ hplace hindex =>
    refine ⟨items[place], List.getElem?_eq_getElem hplace, ?_⟩
    change itemAt site items (int i) = _
    unfold itemAt
    rw [placeOf_of_reads site (.item hplace hindex)]
    dsimp only [bind, Except.bind]
    rw [List.getElem?_eq_getElem hplace]
    rfl
  | @entry entries _ _ hfirst =>
    have hvalue : (object entries).items[place]? = some (entries.get ⟨place, hfirst.lt⟩).2 := by
      simp [items, hfirst.lt]
    exact ⟨_, hvalue, entryAt_of_first site hfirst⟩

theorem lookup_of_not_reads (site : Site) (hcompound : container.isCompound = true)
    (h : ∀ place, ¬Reads container index place) :
    lookup site container index = Attempt.fail site (refusal container index) := by
  cases container with
  | array items =>
    change itemAt site items index = _
    unfold itemAt
    rw [placeOf_of_not_reads site h]
    rfl
  | object entries => exact entryAt_of_not_reads site h
  | _ => cases hcompound

end Value

end Calculator
