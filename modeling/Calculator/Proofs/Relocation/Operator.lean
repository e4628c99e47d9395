import Calculator.Evaluation.Walk
import Calculator.Proofs.Arithmetic.Meeting
import Calculator.Proofs.Grammar.Trees

/-!
# Operators at other places

What an operator comes to depends on its place only in where a failure is.
-/

namespace Calculator

variable {move : Site → Site} {site : Site}

/-! ## Failures -/

/-- The same failure at another place. A fault is nowhere. -/
def Failure.relocate (move : Site → Site) : Failure → Failure
  | .error cause site => .error cause (site.map (Site.relocate move))
  | .fault why => .fault why

namespace Attempt

variable {α β : Type}

/-- The same attempt at another place. -/
def relocate (move : Site → Site) (attempt : Attempt α) : Attempt α :=
  attempt.mapError (Failure.relocate move)

@[simp]
theorem relocate_ok (a : α) : relocate move (.ok a) = .ok a := rfl

@[simp]
theorem relocate_pure (a : α) : relocate move (pure a) = pure a := rfl

@[simp]
theorem relocate_fail (cause : Cause) :
    relocate move (fail site cause : Attempt α) = fail (site.relocate move) cause := rfl

@[simp]
theorem relocate_ofFault (result : Except Fault α) :
    relocate move (ofFault result) = ofFault result := by
  cases result <;> rfl

@[simp]
theorem relocate_bind (attempt : Attempt α) (f : α → Attempt β) :
    relocate move (attempt >>= f) = relocate move attempt >>= fun a => relocate move (f a) := by
  cases attempt <;> rfl

@[simp]
theorem relocate_map (f : α → β) (attempt : Attempt α) :
    relocate move (f <$> attempt) = f <$> relocate move attempt := by
  cases attempt <;> rfl

@[simp]
theorem relocate_mapM (f : α → Attempt β) (xs : List α) :
    relocate move (xs.mapM f) = xs.mapM fun x => relocate move (f x) := by
  induction xs with
  | nil => rfl
  | cons x xs ih => simp [List.mapM_cons, ih]

@[simp]
theorem relocate_ite (c : Prop) [Decidable c] (a b : Attempt α) :
    relocate move (if c then a else b) = if c then relocate move a else relocate move b := by
  split <;> rfl

/-- Attempts one after the other may be moved one by one. -/
theorem bind_relocate {attempt moved : Attempt α} {f g : α → Attempt β}
    (hfirst : moved = attempt.relocate move) (hnext : ∀ a, g a = (f a).relocate move) :
    moved >>= g = relocate move (attempt >>= f) := by
  rw [hfirst, relocate_bind]
  congr 1
  exact funext hnext

/-- Results that are put together are moved one by one. -/
theorem map_mapM_relocate {f g : α → Attempt β} {xs : List α} {γ : Type} (rebuild : List β → γ)
    (h : ∀ x ∈ xs, g x = relocate move (f x)) :
    rebuild <$> xs.mapM g = relocate move (rebuild <$> xs.mapM f) := by
  rw [relocate_map, relocate_mapM, mapM_congr h]

end Attempt

open Attempt

/-! ## Indexes -/

namespace Value

@[simp]
theorem placeOf_relocate (size : Nat) (index : Value) :
    placeOf (site.relocate move) size index = (placeOf site size index).relocate move := by
  unfold placeOf
  split
  · split <;> simp
  · simp

@[simp]
theorem itemAt_relocate (items : List Value) (index : Value) :
    itemAt (site.relocate move) items index = (itemAt site items index).relocate move := by
  refine bind_relocate (placeOf_relocate _ _) fun place => ?_
  split <;> simp

@[simp]
theorem entryAt_relocate (entries : Entries) (key : Value) :
    entryAt (site.relocate move) entries key = (entryAt site entries key).relocate move := by
  unfold entryAt
  split <;> simp

@[simp]
theorem lookup_relocate (target index : Value) :
    lookup (site.relocate move) target index = (lookup site target index).relocate move := by
  unfold lookup
  split <;> simp

end Value

/-! ## Element by element -/

namespace Arithmetic

theorem broadcast_relocate {operation operation' : ScalarOperation}
    (h : ∀ a b, operation' a b = (operation a b).relocate move) (left right : Value) :
    broadcast (site.relocate move) operation' left right =
      (broadcast site operation left right).relocate move := by
  induction left, right using meeting_induction with
  | step left right ih =>
    cases hname : left.name?.or right.name? with
    | some s =>
      rw [broadcast_of_name _ _ hname, broadcast_of_name _ _ hname]
      rfl
    | none =>
      obtain ⟨hleft, hright⟩ := Option.or_eq_none_iff.mp hname
      rw [broadcast_eq _ _ hleft hright, broadcast_eq _ _ hleft hright]
      cases hmeeting : meeting left right with
      | scalars => exact h left right
      | refused cause => rfl
      | each pairs rebuild => exact map_mapM_relocate rebuild (ih pairs rebuild hmeeting)

/-! ## Scalars -/

theorem wholeScalars_relocate (expected : Expected) (f : Int → Int → Option Int) (a b : Value) :
    wholeScalars (site.relocate move) expected f a b =
      (wholeScalars site expected f a b).relocate move := by
  unfold wholeScalars
  split
  · split <;> simp
  · simp

@[simp]
theorem finished_relocate (x : Float) :
    finished (site.relocate move) x = (finished site x).relocate move := by
  simp [finished]

theorem realScalars_relocate (f : Float → Float → Float) (a b : Value) :
    realScalars (site.relocate move) f a b = (realScalars site f a b).relocate move := by
  unfold realScalars
  split <;> simp

end Arithmetic

open Arithmetic

@[simp]
theorem Operator.apply_relocate (operator : Operator) (left right : Value) :
    operator.apply (site.relocate move) left right =
      (operator.apply site left right).relocate move := by
  unfold Operator.apply Operator.calculate
  split
  · rfl
  · split
    · exact broadcast_relocate (wholeScalars_relocate _ _) left right
    · split
      · exact broadcast_relocate (realScalars_relocate _) left right
      · exact broadcast_relocate (wholeScalars_relocate _ _) left right

namespace Arithmetic

@[simp]
theorem negate_relocate (value : Value) :
    negate (site.relocate move) value = (negate site value).relocate move := by
  induction value using items_induction (negate_array site) with
  | single value hsingle =>
    cases value with
    | int n =>
      unfold negate
      split <;> rfl
    | array items => exact absurd rfl (hsingle items)
    | _ => rfl
  | array items ih =>
    rw [negate_array]
    exact map_mapM_relocate Value.array ih

@[simp]
theorem complement_relocate (value : Value) :
    complement (site.relocate move) value = (complement site value).relocate move := by
  induction value using items_induction (complement_array site) with
  | single value hsingle =>
    cases value with
    | array items => exact absurd rfl (hsingle items)
    | _ => rfl
  | array items ih =>
    rw [complement_array]
    exact map_mapM_relocate Value.array ih

theorem factorialInt_relocate (n : Int) :
    factorialInt (site.relocate move) n = (factorialInt site n).relocate move := by
  unfold factorialInt
  split
  · rfl
  · split <;> rfl

@[simp]
theorem factorial_relocate (value : Value) :
    factorial (site.relocate move) value = (factorial site value).relocate move := by
  induction value using items_induction (factorial_array site) with
  | single value hsingle =>
    cases value with
    | int n => exact factorialInt_relocate n
    | float x =>
      unfold factorial
      split
      · exact factorialInt_relocate _
      · rfl
    | array items => exact absurd rfl (hsingle items)
    | _ => rfl
  | array items ih =>
    rw [factorial_array]
    exact map_mapM_relocate Value.array ih

end Arithmetic

namespace Comparator

@[simp]
theorem comparable_relocate (value : Value) :
    comparable (site.relocate move) value = (comparable site value).relocate move := by
  unfold comparable
  split
  · rfl
  · refine bind_relocate (relocate_ofFault _).symm fun x => ?_
    split <;> rfl

@[simp]
theorem compare_relocate (comparator : Comparator) (left right : Value) :
    comparator.compare (site.relocate move) left right =
      (comparator.compare site left right).relocate move := by
  have hsides : Sides.of (site.relocate move) left right =
      (Sides.of site left right).relocate move := by
    simp [Sides.of]
  cases comparator <;> simp [compare, hsides]

end Comparator

end Calculator
