import Calculator.Proofs.Arithmetic.Meeting
import Calculator.Proofs.Arithmetic.Range
import Calculator.Proofs.Demand.Value

/-!
# Operators under a demand

Operators and functions of numbers make values that meet a demand out of values that meet it.
-/

namespace Calculator

open Number Value

variable {demand : Demand} {site : Site}

/-! ## Parts of a value -/

/-- What a demand says about the items of an array. -/
abbrev AllMeet (demand : Demand) (items : List Value) : Prop := ∀ item ∈ items, item.meets demand

namespace Attempt.Yields

variable {α β : Type} {post : β → Prop}

theorem map {attempt : Attempt α} {f : α → β} (h : attempt.Yields fun a => post (f a)) :
    Attempt.Yields (f <$> attempt) post := by
  rw [map_eq_pure_bind]
  exact .bind h fun _ hpost => .ok hpost

theorem mapM {f : α → Attempt β} {xs : List α} (h : ∀ x ∈ xs, (f x).Yields post) :
    Attempt.Yields (xs.mapM f) fun ys => ∀ y ∈ ys, post y := by
  intro ys hys y hy
  obtain ⟨x, hx, hfx⟩ := Attempt.mem_of_mapM_eq_ok hys y hy
  exact h x hx y hfx

end Attempt.Yields

namespace Arithmetic

theorem Part.meets {whole part : Value} (h : Part whole part) (hwhole : whole.meets demand) :
    part.meets demand := by
  cases h with
  | scalar => exact hwhole
  | item h => exact meets_array.mp hwhole _ h
  | value h => exact (meets_object.mp hwhole).values _ h

/-- New values under the keys of an object. -/
theorem underKeys_meets {entries : Entries} {values : List Value}
    (h : (Value.object entries).meets demand) (hvalues : AllMeet demand values) :
    (underKeys entries values).meets demand := by
  refine meets_object.mpr ((meets_object.mp h).of_keys ?_ fun entry hentry => ?_)
  · rw [List.zip_eq_zip_take_min, List.map_fst_zip (by simp)]
    exact List.take_sublist _ _
  · exact hvalues _ (List.of_mem_zip hentry).2

theorem rebuild_meets {left right : Value} {pairs : List (Value × Value)}
    {rebuild : List Value → Value} (h : meeting left right = .each pairs rebuild)
    (hleft : left.meets demand) (hright : right.meets demand) {values : List Value}
    (hvalues : AllMeet demand values) : (rebuild values).meets demand := by
  rcases rebuild_cases h with rfl | ⟨entries, rfl | rfl, rfl⟩
  · exact meets_array.mpr hvalues
  · exact underKeys_meets hleft hvalues
  · exact underKeys_meets hright hvalues

end Arithmetic

namespace Attempt.Yields

theorem array {items : Attempt (List Value)} (h : items.Yields (AllMeet demand)) :
    Attempt.Yields (do return Value.array (← items)) (·.meets demand) :=
  .bind h fun _ hitems => .ok (meets_array.mpr hitems)

theorem eachItem {f : Value → Attempt Value} {items : List Value}
    (h : (Value.array items).meets demand)
    (hitems : ∀ item ∈ items, item.meets demand → (f item).Yields (·.meets demand)) :
    Attempt.Yields (Value.array <$> items.mapM f) (·.meets demand) :=
  .map ((mapM fun item hitem => hitems item hitem (meets_array.mp h item hitem)).mono
    fun _ => meets_array.mpr)

theorem eachValue {f : Value → Attempt Value} {entries : Entries}
    (h : (Value.object entries).meets demand)
    (hentries : ∀ entry ∈ entries, entry.2.meets demand → (f entry.2).Yields (·.meets demand)) :
    Attempt.Yields (Arithmetic.underKeys entries <$> entries.mapM fun entry => f entry.2)
      (·.meets demand) :=
  .map ((mapM fun entry hentry =>
    hentries entry hentry ((meets_object.mp h).values entry hentry)).mono
      fun _ => Arithmetic.underKeys_meets h)

end Attempt.Yields

namespace Arithmetic

/-! ## Element by element -/

/-- The operation makes values that meet the demand out of values that meet it. -/
def ScalarOperation.Keeps (demand : Demand) (operation : ScalarOperation) : Prop :=
  ∀ left right, left.meets demand → right.meets demand →
    (operation left right).Yields (·.meets demand)

theorem broadcast_yields {operation : ScalarOperation} (hoperation : operation.Keeps demand)
    (left right : Value) (hleft : left.meets demand) (hright : right.meets demand) :
    (broadcast site operation left right).Yields (·.meets demand) := by
  induction left, right using broadcast_induction site operation with
  | name => exact .fail
  | refused => exact .fail
  | scalars left right => exact hoperation left right hleft hright
  | each left right pairs rebuild hmeeting ih =>
    refine .map ((Attempt.Yields.mapM fun pair hpair => ?_).mono fun values hvalues =>
      rebuild_meets hmeeting hleft hright hvalues)
    obtain ⟨hl, hr, -⟩ := parts_of_meeting hmeeting pair hpair
    exact ih pair hpair (hl.meets hleft) (hr.meets hright)

/-! ## Scalars -/

theorem wholeScalars_keeps (site : Site) (expected : Expected) (operator : Operator) :
    (wholeScalars site expected operator.onInts).Keeps demand := by
  intro left right hleft hright
  unfold wholeScalars
  split
  case h_1 a b =>
    split
    case h_1 n hn =>
      refine .ok (meets_int.mpr fun hdemand => ?_)
      exact operator.onInts_inRange (meets_int.mp hleft hdemand) (meets_int.mp hright hdemand) hn
    case h_2 => exact .fail
  case h_2 => exact .fail

theorem finished_yields (x : Float) : (finished site x).Yields (·.meets demand) := by
  unfold finished
  split
  · exact .fail
  · split
    · exact .fail
    · exact .ok rfl

theorem realScalars_keeps (site : Site) (f : Float → Float → Float) :
    (realScalars site f).Keeps demand := by
  intro left right _ _
  unfold realScalars
  split
  · exact .bind (.any _) fun _ _ => .bind (.any _) fun _ _ => finished_yields _
  · exact .fail

end Arithmetic

theorem Operator.apply_yields {left right : Value} (operator : Operator)
    (hleft : left.meets demand) (hright : right.meets demand) :
    (operator.apply site left right).Yields (·.meets demand) := by
  unfold Operator.apply
  split
  · exact .ok (meets_string _)
  · unfold Operator.calculate
    split
    · exact Arithmetic.broadcast_yields (Arithmetic.wholeScalars_keeps _ _ _) _ _ hleft hright
    · split
      · exact Arithmetic.broadcast_yields (Arithmetic.realScalars_keeps _ _) _ _ hleft hright
      · exact Arithmetic.broadcast_yields (Arithmetic.wholeScalars_keeps _ _ _) _ _ hleft hright

/-! ## One operand -/

namespace Arithmetic

theorem negate_yields (value : Value) (h : value.meets demand) :
    (negate site value).Yields (·.meets demand) := by
  induction value using items_induction (negate_array site) with
  | single value hsingle =>
    cases value with
    | int n =>
      unfold negate
      split
      case h_1 m hm => exact .ok (meets_int.mpr fun _ => inRange_of_checked hm)
      case h_2 => exact .fail
    | float | bool => exact .ok rfl
    | array items => exact absurd rfl (hsingle items)
    | _ => exact .fail
  | array items ih => exact .eachItem h ih

theorem complement_yields (value : Value) (h : value.meets demand) :
    (complement site value).Yields (·.meets demand) := by
  induction value using items_induction (complement_array site) with
  | single value hsingle =>
    cases value with
    | int n => exact .ok (meets_int.mpr fun hdemand => inRange_complement (meets_int.mp h hdemand))
    | bool => exact .ok rfl
    | array items => exact absurd rfl (hsingle items)
    | _ => exact .fail
  | array items ih => exact .eachItem h ih

theorem factorialInt_yields (n : Int) : (factorialInt site n).Yields (·.meets demand) := by
  unfold factorialInt
  split
  · exact .fail
  · split
    case h_1 m hm => exact .ok (meets_int.mpr fun _ => inRange_factorial hm)
    case h_2 => exact .fail

theorem factorial_yields (value : Value) (h : value.meets demand) :
    (factorial site value).Yields (·.meets demand) := by
  induction value using items_induction (factorial_array site) with
  | single value hsingle =>
    cases value with
    | int n => exact factorialInt_yields n
    | float x =>
      unfold factorial
      split
      · exact factorialInt_yields _
      · exact .fail
    | array items => exact absurd rfl (hsingle items)
    | _ => exact .fail
  | array items ih => exact .eachItem h ih

end Arithmetic

/-! ## Functions of numbers -/

/-- The function makes values that meet the demand out of numbers that meet it. -/
def KeepsNumbers (demand : Demand) (f : Value → Attempt Value) : Prop :=
  ∀ value, value.isNumeric → value.meets demand → (f value).Yields (·.meets demand)

theorem mapNumbers_yields {f : Value → Attempt Value} (hf : KeepsNumbers demand f) (value : Value)
    (h : value.meets demand) : (mapNumbers site f value).Yields (·.meets demand) := by
  induction value using mapNumbers_induction site f with
  | refused => exact .fail
  | number value hnumber => exact hf value hnumber h
  | array items ih => exact .eachItem h ih
  | object entries ih => exact .eachValue h ih

theorem mapFloats_yields (f : Float → Float) {value : Value} (h : value.meets demand) :
    (mapFloats site f value).Yields (·.meets demand) :=
  mapNumbers_yields (fun _ _ _ => .bind (.any _) fun _ _ => .ok rfl) value h

end Calculator
