import Calculator.Arithmetic.Comparison
import Calculator.Proofs.Arithmetic.Meeting
import Calculator.Value.Indexing

/-!
# How operators fail

There are failures that no value can cause: the program contradicts itself, or the source has left
something open. Operators and functions of numbers never fail in such a way.
-/

namespace Calculator

open Number Value

/-! ## Hazards -/

def Cause.isSpecial : Cause → Bool
  | .slip _ | .internal _ => true
  | _ => false

/-- No value can cause it. -/
def Failure.isSpecial : Failure → Bool
  | .error cause _ => cause.isSpecial
  | .fault _ => false

/-- Failures to be avoided, all of them special. -/
structure Hazard where
  Holds : Failure → Prop
  special : ∀ failure, Holds failure → failure.isSpecial

namespace Attempt

variable {α β γ : Type} {hazard : Hazard} {post : α → Prop} {next : β → Prop}

/-- Comes to something as described, or fails in a way that is no hazard. -/
inductive Avoids (hazard : Hazard) (post : α → Prop) : Attempt α → Prop
  | ok {a : α} (h : post a) : Avoids hazard post (.ok a)
  | failed {failure : Failure} (h : ¬hazard.Holds failure) : Avoids hazard post (.error failure)

abbrev Safe (hazard : Hazard) (attempt : Attempt α) : Prop := attempt.Avoids hazard fun _ => True

namespace Avoids

theorem error {failure : Failure} (h : failure.isSpecial = false) :
    Avoids hazard post (.error failure) := by
  refine .failed fun hholds => ?_
  rw [hazard.special failure hholds] at h
  cases h

theorem fail {site : Site} {cause : Cause} (h : cause.isSpecial = false) :
    Avoids hazard post (Attempt.fail site cause) := error h

theorem bind {attempt : Attempt α} {f : α → Attempt β} (h : attempt.Avoids hazard post)
    (hnext : ∀ a, post a → (f a).Avoids hazard next) : (attempt >>= f).Avoids hazard next := by
  cases h with
  | ok h => exact hnext _ h
  | failed h => exact .failed h

theorem ofFault (x : Except Fault α) : (Attempt.ofFault x).Safe hazard := by
  cases x with
  | ok a => exact .ok trivial
  | error fault => exact .error rfl

/-- A value made of what one attempt comes to. -/
theorem lift {attempt : Attempt α} {f : α → β} (h : attempt.Safe hazard) :
    Safe hazard (do return f (← attempt)) :=
  .bind h fun _ _ => .ok trivial

/-- A value made of what two attempts come to. -/
theorem lift₂ {first : Attempt α} {second : Attempt β} {f : α → β → γ} (hfirst : first.Safe hazard)
    (hsecond : second.Safe hazard) : Safe hazard (do return f (← first) (← second)) :=
  .bind hfirst fun _ _ => .lift hsecond

theorem map {f : α → β} {attempt : Attempt α} (h : attempt.Safe hazard) :
    Safe hazard (f <$> attempt) := by
  cases h with
  | ok => exact .ok trivial
  | failed h => exact .failed h

theorem mapM {f : α → Attempt β} {xs : List α} (h : ∀ x ∈ xs, (f x).Safe hazard) :
    Safe hazard (xs.mapM f) := by
  induction xs with
  | nil => exact .ok trivial
  | cons x xs ih =>
    rw [List.forall_mem_cons] at h
    rw [List.mapM_cons]
    exact .lift₂ h.1 (ih h.2)

end Avoids

end Attempt

variable {hazard : Hazard} {site : Site}

namespace Arithmetic

/-! ## Element by element -/

/-- The operation never fails in a hazardous way. -/
def ScalarOperation.Safe (hazard : Hazard) (operation : ScalarOperation) : Prop :=
  ∀ left right, (operation left right).Safe hazard

theorem broadcast_safe {operation : ScalarOperation} (h : operation.Safe hazard)
    (left right : Value) : (broadcast site operation left right).Safe hazard := by
  induction left, right using broadcast_induction site operation with
  | name => exact .fail rfl
  | refused left right cause hmeeting =>
    rcases refused_cases hmeeting with rfl | ⟨expected, rfl⟩
    · exact .fail rfl
    · exact .fail rfl
  | scalars left right => exact h left right
  | each left right pairs rebuild hmeeting ih => exact .map (.mapM ih)

/-! ## Scalars -/

theorem wholeScalars_safe (site : Site) (expected : Expected) (f : Int → Int → Option Int) :
    (wholeScalars site expected f).Safe hazard := by
  intro left right
  unfold wholeScalars
  split
  · split
    · exact .ok trivial
    · exact .fail rfl
  · exact .fail rfl

theorem finished_safe (x : Float) : (finished site x).Safe hazard := by
  unfold finished
  split
  · exact .fail rfl
  · split
    · exact .fail rfl
    · exact .ok trivial

theorem realScalars_safe (site : Site) (f : Float → Float → Float) :
    (realScalars site f).Safe hazard := by
  intro left right
  unfold realScalars
  split
  · exact .bind (.ofFault _) fun _ _ => .bind (.ofFault _) fun _ _ => finished_safe _
  · exact .fail rfl

end Arithmetic

theorem Operator.apply_safe (operator : Operator) (left right : Value) :
    (operator.apply site left right).Safe hazard := by
  unfold Operator.apply
  split
  · exact .ok trivial
  · unfold Operator.calculate
    split
    · exact Arithmetic.broadcast_safe (Arithmetic.wholeScalars_safe _ _ _) _ _
    · split
      · exact Arithmetic.broadcast_safe (Arithmetic.realScalars_safe _ _) _ _
      · exact Arithmetic.broadcast_safe (Arithmetic.wholeScalars_safe _ _ _) _ _

/-! ## One operand -/

namespace Arithmetic

theorem negate_safe (value : Value) : (negate site value).Safe hazard := by
  induction value using items_induction (negate_array site) with
  | single value hsingle =>
    cases value with
    | int n =>
      unfold negate
      split
      · exact .ok trivial
      · exact .fail rfl
    | float | bool => exact .ok trivial
    | array items => exact absurd rfl (hsingle items)
    | _ => exact .fail rfl
  | array items ih => exact .map (.mapM ih)

theorem complement_safe (value : Value) : (complement site value).Safe hazard := by
  induction value using items_induction (complement_array site) with
  | single value hsingle =>
    cases value with
    | int | bool => exact .ok trivial
    | array items => exact absurd rfl (hsingle items)
    | _ => exact .fail rfl
  | array items ih => exact .map (.mapM ih)

theorem factorialInt_safe (n : Int) : (factorialInt site n).Safe hazard := by
  unfold factorialInt
  split
  · exact .fail rfl
  · split
    · exact .ok trivial
    · exact .fail rfl

theorem factorial_safe (value : Value) : (factorial site value).Safe hazard := by
  induction value using items_induction (factorial_array site) with
  | single value hsingle =>
    cases value with
    | int n => exact factorialInt_safe n
    | float x =>
      unfold factorial
      split
      · exact factorialInt_safe _
      · exact .fail rfl
    | array items => exact absurd rfl (hsingle items)
    | _ => exact .fail rfl
  | array items ih => exact .map (.mapM ih)

end Arithmetic

/-! ## Comparisons and indexing -/

namespace Comparator

theorem comparable_safe (value : Value) : (comparable site value).Safe hazard := by
  unfold comparable
  split
  · exact .fail rfl
  · refine .bind (.ofFault _) fun number _ => ?_
    split
    · exact .ok trivial
    · exact .fail rfl

theorem sidesOf_safe (left right : Value) : (Sides.of site left right).Safe hazard := by
  unfold Sides.of
  split
  · exact .ok trivial
  · exact .lift₂ (comparable_safe left) (comparable_safe right)

theorem compare_safe (comparator : Comparator) (left right : Value) :
    (comparator.compare site left right).Safe hazard := by
  cases comparator with
  | eq => exact .ofFault _
  | ne => exact .lift (.ofFault _)
  | lt | gt | le | ge => exact .lift (sidesOf_safe left right)

end Comparator

namespace Value

theorem placeOf_safe (size : Nat) (index : Value) : (placeOf site size index).Safe hazard := by
  unfold placeOf
  split
  · split
    · exact .ok trivial
    · exact .fail rfl
  · exact .fail rfl

theorem itemAt_safe (items : List Value) (index : Value) :
    (itemAt site items index).Safe hazard := by
  refine .bind (placeOf_safe _ index) fun place _ => ?_
  split
  · exact .ok trivial
  · exact .fail rfl

theorem entryAt_safe (entries : Entries) (key : Value) :
    (entryAt site entries key).Safe hazard := by
  unfold entryAt
  split
  · exact .ok trivial
  · exact .fail rfl

theorem lookup_safe (target index : Value) : (lookup site target index).Safe hazard := by
  unfold lookup
  split
  · exact itemAt_safe _ index
  · exact entryAt_safe _ index
  · exact itemAt_safe _ index
  · exact .fail rfl

end Value

/-! ## Functions of numbers -/

theorem mapNumbers_safe {f : Value → Attempt Value} (hf : ∀ value, (f value).Safe hazard)
    (value : Value) : (mapNumbers site f value).Safe hazard := by
  induction value using mapNumbers_induction site f with
  | refused => exact .fail rfl
  | number value => exact hf value
  | array items ih => exact .map (.mapM ih)
  | object entries ih => exact .map (.mapM ih)

theorem asFloat_safe (value : Value) : (asFloat site value).Safe hazard := by
  unfold asFloat
  split
  · exact .ofFault _
  · exact .fail rfl

theorem mapFloats_safe (f : Float → Float) (value : Value) :
    (mapFloats site f value).Safe hazard :=
  mapNumbers_safe (fun value => .lift (asFloat_safe value)) value

end Calculator
