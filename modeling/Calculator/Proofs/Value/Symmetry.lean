import Mathlib.Data.Fintype.EquivFin
import Mathlib.Data.List.Find
import Mathlib.Data.List.Zip
import Calculator.Arithmetic.Comparison
import Calculator.Proofs.Demand.Value
import Calculator.Proofs.Number.Nearest
import Calculator.Proofs.Value.Reading

/-!
# Symmetry of equality

Scalars are compared the same way from both sides. Objects are not: every key of the one side is
looked up on the other, and one key can equal several. So `a == b` and `b == a` agree as long as no
key of an object equals two keys of the object that it is compared with.
-/

namespace Calculator

namespace Number

open Float.Model (UnpackedFloat)

theorem compare_sizes_swap (m n : Nat) (d e : Int) :
    (compare e d).then (compare n m) = ((compare d e).then (compare m n)).swap := by
  rw [Ordering.swap_then, ← Std.OrientedCmp.eq_swap, ← Std.OrientedCmp.eq_swap]

theorem compare_eq_swap (u v : UnpackedFloat) : u.compare v = (v.compare u).map Ordering.swap := by
  rcases u with s | _ | s | ⟨s, m, e, hm⟩ <;> rcases v with t | _ | t | ⟨t, n, d, hn⟩ <;>
    (try cases s) <;> (try cases t) <;> try rfl
  · exact congrArg (some ∘ Ordering.swap) (compare_sizes_swap n m d e)
  · exact congrArg some (compare_sizes_swap n m d e)

theorem float_beq_comm (x y : Float) : (x == y) = (y == x) := by
  change (x.toModel.unpack.compare y.toModel.unpack == some .eq) =
    (y.toModel.unpack.compare x.toModel.unpack == some .eq)
  rw [compare_eq_swap]
  rcases y.toModel.unpack.compare x.toModel.unpack with _ | _ | _ | _ <;> rfl

end Number

namespace Value

/-! ## Sizes -/

theorem sizeOf_item {items : List Value} {item : Value} (h : item ∈ items) :
    sizeOf item < sizeOf (array items) := by
  have hsize := List.sizeOf_lt_of_mem h
  simp only [array.sizeOf_spec]
  omega

theorem sizeOf_entry {entries : Entries} {entry : Value × Value} (h : entry ∈ entries) :
    sizeOf entry.1 < sizeOf (object entries) ∧ sizeOf entry.2 < sizeOf (object entries) := by
  obtain ⟨key, value⟩ := entry
  have hsize := List.sizeOf_lt_of_mem h
  simp only [object.sizeOf_spec, Prod.mk.sizeOf_spec] at hsize ⊢
  omega

/-! ## Equality from both sides -/

theorem leadsTo_eq (entries : Entries) (key value : Value) :
    leadsTo entries key value =
      (List.find? (fun entry => sameAs false entry.1 key) entries).any fun entry =>
        sameAs true entry.2 value := by
  induction entries with
  | nil => simp [leadsTo]
  | cons entry entries ih =>
    rw [leadsTo, List.find?_cons, ih]
    cases sameAs false entry.1 key <;> rfl

theorem covered_eq (entries others : Entries) :
    covered entries others = List.all entries fun entry =>
      (List.find? (fun other => sameAs true entry.1 other.1) others).any fun other =>
        sameAs false entry.2 other.2 := by
  induction entries with
  | nil => simp [covered]
  | cons entry entries ih =>
    rw [covered, List.all_cons, ih]
    cases List.find? (fun other => sameAs true entry.1 other.1) others <;> rfl

theorem sameItems_eq (swapped : Bool) (xs ys : List Value) :
    sameItems swapped xs ys =
      (xs.length == ys.length && (xs.zip ys).all fun pair => sameAs swapped pair.1 pair.2) := by
  induction xs generalizing ys with
  | nil => cases ys <;> simp [sameItems]
  | cons x xs ih =>
    cases ys with
    | nil => simp [sameItems]
    | cons y ys =>
      rw [sameItems, ih]
      simp [Bool.and_left_comm]

theorem all_congr {α : Type} {p q : α → Bool} {xs : List α} (h : ∀ x ∈ xs, p x = q x) :
    xs.all p = xs.all q := by
  rw [Bool.eq_iff_iff, List.all_eq_true, List.all_eq_true]
  exact forall₂_congr fun x hx => by rw [h x hx]

/-- With `swapped`, the sides are taken the other way round. -/
theorem sameAs_true (a b : Value) : sameAs true a b = sameAs false b a := by
  induction hsize : sizeOf a + sizeOf b using Nat.strongRecOn generalizing a b with
  | ind size ih =>
    cases a <;> cases b
    case array.array xs ys =>
      rw [sameAs, sameAs, sameItems_eq, sameItems_eq, ← List.zip_swap xs ys, List.all_map,
        Bool.beq_comm]
      refine congrArg _ (all_congr fun pair hpair => ?_)
      have hx := sizeOf_item (List.of_mem_zip hpair).1
      have hy := sizeOf_item (List.of_mem_zip hpair).2
      exact ih _ (by omega) pair.1 pair.2 rfl
    case object.object xs ys =>
      rw [sameAs, sameAs, if_pos rfl, if_neg Bool.false_ne_true, covered_eq, Bool.beq_comm]
      refine congrArg _ (all_congr fun other hother => ?_)
      have hy := sizeOf_entry hother
      have hfind : List.find? (fun entry => sameAs false entry.1 other.1) xs =
          List.find? (fun entry => sameAs true other.1 entry.1) xs := by
        refine List.find?_congr fun entry hentry => ?_
        have hx := sizeOf_entry hentry
        exact (ih _ (by omega) other.1 entry.1 rfl).symm
      rw [leadsTo_eq, hfind]
      cases hfound : List.find? (fun entry => sameAs true other.1 entry.1) xs with
      | none => rfl
      | some entry =>
        have hx := sizeOf_entry (List.mem_of_find?_eq_some hfound)
        exact ih _ (by omega) entry.2 other.2 rfl
    all_goals simp [sameAs, Number.float_beq_comm, Bool.beq_comm]

theorem equal_array (xs ys : List Value) :
    equal (array xs) (array ys) =
      (xs.length == ys.length && (xs.zip ys).all fun pair => pair.1.equal pair.2) := by
  rw [equal, sameAs, sameItems_eq]
  rfl

/-- Each key of the first object leads to an equal value in the second. -/
theorem equal_object (xs ys : Entries) :
    equal (object xs) (object ys) =
      (xs.length == ys.length &&
        xs.all fun entry => (Entries.find? ys entry.1).any fun value => entry.2.equal value) := by
  rw [equal, sameAs, if_neg Bool.false_ne_true, covered_eq]
  refine congrArg _ (all_congr fun entry _ => ?_)
  have hkeys : (fun other : Value × Value => sameAs true entry.1 other.1) =
      fun other => other.1.equal entry.1 := funext fun other => sameAs_true entry.1 other.1
  rw [hkeys, Entries.find?, Option.any_map]
  rfl

end Value

/-! ## Matching keys -/

namespace Entries

/-- No key among the others equals two keys of the entries. -/
def Apart (entries others : Entries) : Prop :=
  ∀ other ∈ others, entries.Pairwise fun older newer =>
    ¬(older.1.equal other.1 = true ∧ newer.1.equal other.1 = true)

instance (entries others : Entries) : Decidable (Apart entries others) :=
  inferInstanceAs (Decidable (∀ other ∈ others, List.Pairwise _ entries))

/-- Between both, every key equals at most one key of the other side. -/
structure OneToOne (entries others : Entries) : Prop where
  left : Apart entries others
  right : Apart others entries

theorem Apart.eq {entries others : Entries} (h : Apart entries others) {other : Value × Value}
    (hother : other ∈ others) {i j : Nat} {hi : i < entries.length} {hj : j < entries.length}
    (hequali : entries[i].1.equal other.1 = true) (hequalj : entries[j].1.equal other.1 = true) :
    i = j := by
  have hpairs := List.pairwise_iff_getElem.mp (h other hother)
  rcases Nat.lt_trichotomy i j with hlt | heq | hgt
  · exact absurd ⟨hequali, hequalj⟩ (hpairs i j hi hj hlt)
  · exact heq
  · exact absurd ⟨hequalj, hequali⟩ (hpairs j i hj hi hgt)

/-- All keys lead to equal values among the others. -/
def Covers (entries others : Entries) : Prop :=
  ∀ entry ∈ entries, ∃ value, find? others entry.1 = some value ∧ entry.2.equal value = true

/--
With as many entries on both sides, keys that lead to different places lead to all places. So every
other key comes from one of them, and leads back there.
-/
theorem Covers.symm {entries others : Entries} (hlength : entries.length = others.length)
    (hapart : Apart entries others)
    (hkeys : ∀ entry ∈ entries, ∀ other ∈ others, entry.1.equal other.1 = other.1.equal entry.1)
    (hvalues : ∀ entry ∈ entries, ∀ other ∈ others, other.1.equal entry.1 = true →
      entry.2.equal other.2 = other.2.equal entry.2)
    (h : Covers entries others) : Covers others entries := by
  have hplace (i : Fin entries.length) : ∃ j : Fin entries.length,
      (others[j].1.equal entries[i].1 = true) ∧ entries[i].2.equal others[j].2 = true := by
    obtain ⟨value, hfound, hequal⟩ := h entries[i] (List.getElem_mem i.isLt)
    obtain ⟨place, hfirst, rfl⟩ := find?_eq_some.mp hfound
    exact ⟨⟨place, hlength ▸ hfirst.lt⟩, hfirst.equal, hequal⟩
  choose place hkey hvalue using hplace
  have hback (i : Fin entries.length) : entries[i].1.equal others[place i].1 = true :=
    (hkeys _ (List.getElem_mem i.isLt) _ (List.getElem_mem _)).trans (hkey i)
  have hinjective : Function.Injective place := by
    intro i j heq
    have hj : entries[j].1.equal others[place i].1 = true := by simpa only [heq] using hback j
    exact Fin.ext (hapart.eq (List.getElem_mem _) (hback i) hj)
  intro other hother
  obtain ⟨j, hj, rfl⟩ := List.getElem_of_mem hother
  obtain ⟨i, hi⟩ := Finite.surjective_of_injective hinjective ⟨j, hlength ▸ hj⟩
  have hsame : others[place i] = others[j] := by
    simp only [hi, Fin.getElem_fin]
  have hequal : entries[i].1.equal others[j].1 = true := hsame ▸ hback i
  have hfirst : First entries others[j].1 i := by
    refine ⟨i.isLt, hequal, fun earlier hearlier => Bool.eq_false_iff.mpr fun hequal' => ?_⟩
    exact Nat.ne_of_lt hearlier (hapart.eq hother hequal' hequal)
  refine ⟨_, hfirst.find?, ?_⟩
  calc others[j].2.equal entries[i].2
    _ = entries[i].2.equal others[j].2 :=
        (hvalues _ (List.getElem_mem i.isLt) _ hother (hsame ▸ hkey i)).symm
    _ = entries[i].2.equal others[place i].2 := by rw [hsame]
    _ = true := hvalue i

end Entries

namespace Value

/-- The objects in two values that are compared with each other on the way. -/
inductive Compared : Value → Value → Entries → Entries → Prop where
  | here (xs ys : Entries) : Compared (object xs) (object ys) xs ys
  | item {xs ys : List Value} {pair : Value × Value} {entries others : Entries}
      (hpair : pair ∈ xs.zip ys) (h : Compared pair.1 pair.2 entries others) :
      Compared (array xs) (array ys) entries others
  | key {xs ys : Entries} {x y : Value × Value} {entries others : Entries} (hx : x ∈ xs)
      (hy : y ∈ ys) (h : Compared x.1 y.1 entries others) :
      Compared (object xs) (object ys) entries others
  | value {xs ys : Entries} {x y : Value × Value} {entries others : Entries} (hx : x ∈ xs)
      (hy : y ∈ ys) (hkey : y.1.equal x.1 = true) (h : Compared x.2 y.2 entries others) :
      Compared (object xs) (object ys) entries others

theorem covers_iff (xs ys : Entries) :
    (xs.all fun entry => (Entries.find? ys entry.1).any fun value => entry.2.equal value) = true ↔
      Entries.Covers xs ys := by
  rw [List.all_eq_true]
  refine forall₂_congr fun entry _ => ?_
  rw [Option.any_eq_true]

/-- The induction is on the first side, and goes into the keys as well as into the values. -/
theorem equal_comm {a b : Value}
    (h : ∀ entries others, Compared a b entries others → Entries.OneToOne entries others) :
    a.equal b = b.equal a := by
  induction hsize : sizeOf a using Nat.strongRecOn generalizing a b with
  | ind size ih =>
    cases a <;> cases b
    case array.array xs ys =>
      rw [equal_array, equal_array, ← List.zip_swap xs ys, List.all_map, Bool.beq_comm]
      refine congrArg _ (all_congr fun pair hpair => ?_)
      have hlt : sizeOf pair.1 < size := hsize ▸ sizeOf_item (List.of_mem_zip hpair).1
      exact ih _ hlt (fun _ _ hcompared => h _ _ (.item hpair hcompared)) rfl
    case object.object xs ys =>
      have hkeys : ∀ x ∈ xs, ∀ y ∈ ys, x.1.equal y.1 = y.1.equal x.1 := by
        intro x hx y hy
        have hlt : sizeOf x.1 < size := hsize ▸ (sizeOf_entry hx).1
        exact ih _ hlt (fun _ _ hcompared => h _ _ (.key hx hy hcompared)) rfl
      have hvalues : ∀ x ∈ xs, ∀ y ∈ ys, y.1.equal x.1 = true → x.2.equal y.2 = y.2.equal x.2 := by
        intro x hx y hy hkey
        have hlt : sizeOf x.2 < size := hsize ▸ (sizeOf_entry hx).2
        exact ih _ hlt (fun _ _ hcompared => h _ _ (.value hx hy hkey hcompared)) rfl
      -- Each direction covers the other side, because as many keys lead to different places.
      obtain ⟨hleft, hright⟩ := h xs ys (.here xs ys)
      rw [equal_object, equal_object]
      by_cases hlength : xs.length = ys.length
      case neg =>
        rw [beq_false_of_ne hlength, beq_false_of_ne (Ne.symm hlength)]
        rfl
      rw [Bool.beq_comm]
      refine congrArg _ (Bool.eq_iff_iff.mpr ?_)
      rw [covers_iff, covers_iff]
      constructor
      · exact .symm hlength hleft hkeys hvalues
      · refine .symm hlength.symm hright (fun y hy x hx => (hkeys x hx y hy).symm) ?_
        exact fun y hy x hx hkey => (hvalues x hx y hy (hkeys x hx y hy ▸ hkey)).symm
    all_goals simp [equal, sameAs, Number.float_beq_comm, Bool.beq_comm]

/-! ## Integers in range -/

section InRange

open Calculator.Number (isFinite_ofInt toFloat?)

theorem outgrowsAmong_eq_false {xs ys : List Value}
    (h : ∀ x ∈ xs, ∀ y ∈ ys, outgrows x y = false) : outgrowsAmong xs ys = false := by
  induction xs generalizing ys with
  | nil => cases ys <;> rfl
  | cons x xs ih =>
    cases ys with
    | nil => rfl
    | cons y ys =>
      have hrest : outgrowsAmong xs ys = false := ih fun x hx y hy =>
        h x (List.mem_cons_of_mem _ hx) y (List.mem_cons_of_mem _ hy)
      rw [outgrowsAmong, h x List.mem_cons_self y List.mem_cons_self, hrest, Bool.and_false]
      rfl

theorem outgrowsEntries_eq_false {xs ys : Entries}
    (h : ∀ x ∈ xs, ∀ y ∈ ys, outgrows x.2 y.2 = false) : outgrowsEntries xs ys = false := by
  induction xs with
  | nil => rfl
  | cons x xs ih =>
    have hrest := ih fun x hx => h x (List.mem_cons_of_mem _ hx)
    rw [outgrowsEntries]
    cases hfound : List.find? (fun entry => equal entry.1 x.1) ys with
    | none => rfl
    | some y =>
      have hvalue := h x List.mem_cons_self y (List.mem_of_find?_eq_some hfound)
      dsimp only
      rw [hvalue, hrest, Bool.and_false]
      rfl

theorem isNone_toFloat? {n : Int} (h : (int n).meets .inRange = true) :
    (toFloat? n).isNone = false := by
  unfold toFloat?
  dsimp only
  rw [if_pos (isFinite_ofInt (meets_int.mp h rfl))]
  rfl

/-- An integer in range is not beyond the floats, so every comparison comes to an answer. -/
theorem outgrows_of_inRange {a b : Value} (ha : a.meets .inRange = true)
    (hb : b.meets .inRange = true) : outgrows a b = false := by
  induction hsize : sizeOf a using Nat.strongRecOn generalizing a b with
  | ind size ih =>
    cases a <;> cases b
    case int.float => exact isNone_toFloat? ha
    case float.int => exact isNone_toFloat? hb
    case array.array xs ys =>
      have hitems : ∀ x ∈ xs, ∀ y ∈ ys, outgrows x y = false := by
        intro x hx y hy
        have hlt : sizeOf x < size := hsize ▸ sizeOf_item hx
        exact ih _ hlt (meets_array.mp ha x hx) (meets_array.mp hb y hy) rfl
      rw [outgrows, outgrowsAmong_eq_false hitems, Bool.and_false]
    case object.object xs ys =>
      have hvalues : ∀ x ∈ xs, ∀ y ∈ ys, outgrows x.2 y.2 = false := by
        intro x hx y hy
        have hlt : sizeOf x.2 < size := hsize ▸ (sizeOf_entry hx).2
        exact ih _ hlt ((meets_object.mp ha).values x hx) ((meets_object.mp hb).values y hy) rfl
      rw [outgrows, outgrowsEntries_eq_false hvalues, Bool.and_false]
    all_goals rfl

theorem equal?_of_inRange {a b : Value} (ha : a.meets .inRange = true)
    (hb : b.meets .inRange = true) : a.equal? b = .ok (a.equal b) := by
  rw [equal?, outgrows_of_inRange ha hb]
  rfl

end InRange

end Value

namespace Comparator

open Value

end Comparator

end Calculator
