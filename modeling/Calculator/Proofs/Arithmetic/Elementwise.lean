import Calculator.Arithmetic.Operator
import Calculator.Proofs.Arithmetic.Meeting
import Calculator.Proofs.Number.Nearest

/-!
# Arithmetic element by element

Whether an operation is one on integers or one on floats is decided once, by all that is inside of
both operands. After that it is done on every pair of values that meet, as if they were operands of
their own.
-/

namespace Calculator

open Number Arithmetic

/-! ## Operands and their floats -/

namespace Value

def isInt : Value → Bool
  | int _ => true
  | _ => false

def isFloat : Value → Bool
  | float _ => true
  | _ => false

/-- What arithmetic can be asked to do something with. -/
def isOperand : Value → Bool
  | int n => inRange n
  | string _ | name _ => false
  | _ => true

/-- No text and no names inside, and no integer that is out of range. -/
def IsOperand (value : Value) : Prop := ∀ leaf ∈ value.leaves, leaf.isOperand = true

instance (value : Value) : Decidable value.IsOperand :=
  inferInstanceAs (Decidable (∀ leaf ∈ value.leaves, leaf.isOperand = true))

theorem IsOperand.part {whole part : Value} (h : whole.IsOperand) (hpart : Part whole part) :
    part.IsOperand := fun leaf hleaf => h leaf (hpart.leaves_subset hleaf)

theorem IsOperand.name?_eq {value : Value} (h : value.IsOperand) : value.name? = Option.none := by
  cases value with
  | name s => cases h (name s) List.mem_cons_self
  | _ => rfl

theorem IsOperand.isString_eq {value : Value} (h : value.IsOperand) : value.isString = false := by
  cases value with
  | string s => cases h (string s) List.mem_cons_self
  | _ => rfl

mutual

/-- Every integer gives way to the float that it is. -/
def floated : Value → Value
  | int n => float (Float.ofInt n)
  | array items => array (itemsFloated items)
  | object entries => object (entriesFloated entries)
  | value => value

def itemsFloated : List Value → List Value
  | [] => []
  | item :: items => floated item :: itemsFloated items

def entriesFloated : Entries → Entries
  | [] => []
  | (key, value) :: entries => (key, floated value) :: entriesFloated entries

end

theorem itemsFloated_eq (items : List Value) : itemsFloated items = items.map floated := by
  induction items with
  | nil => rfl
  | cons item items ih => rw [itemsFloated, ih, List.map_cons]

theorem entriesFloated_eq (entries : Entries) :
    entriesFloated entries = entries.map fun entry => (entry.1, entry.2.floated) := by
  induction entries with
  | nil => rfl
  | cons entry entries ih => rw [entriesFloated, ih, List.map_cons]

mutual

theorem leaves_floated : (value : Value) → value.floated.leaves = value.leaves.map floated
  | array items => itemLeaves_floated items
  | object entries => entryLeaves_floated entries
  | none | bool _ | int _ | float _ | string _ | name _ => rfl

theorem itemLeaves_floated : (items : List Value) →
    itemLeaves (itemsFloated items) = (itemLeaves items).map floated
  | [] => rfl
  | item :: items => by
    rw [itemsFloated, itemLeaves, itemLeaves, List.map_append, leaves_floated item,
      itemLeaves_floated items]

theorem entryLeaves_floated : (entries : Entries) →
    entryLeaves (entriesFloated entries) = (entryLeaves entries).map floated
  | [] => rfl
  | (_, value) :: entries => by
    rw [entriesFloated, entryLeaves, entryLeaves, List.map_append, leaves_floated value,
      entryLeaves_floated entries]

end

theorem isOperand_floated (value : Value) (h : value.isOperand = true) :
    value.floated.isOperand = true := by
  cases value <;> first | rfl | exact h

theorem IsOperand.floated {value : Value} (h : value.IsOperand) : value.floated.IsOperand := by
  intro leaf hleaf
  rw [leaves_floated] at hleaf
  obtain ⟨old, hold, rfl⟩ := List.mem_map.mp hleaf
  exact isOperand_floated old (h old hold)

mutual

theorem holdsFloat_eq : (value : Value) → holdsFloat value = value.leaves.any isFloat
  | array items => anyHoldsFloat_eq items
  | object entries => anyValueHoldsFloat_eq entries
  | none | bool _ | int _ | float _ | string _ | name _ => rfl

theorem anyHoldsFloat_eq : (items : List Value) →
    anyHoldsFloat items = (itemLeaves items).any isFloat
  | [] => rfl
  | item :: items => by
    rw [anyHoldsFloat, itemLeaves, List.any_append, holdsFloat_eq item, anyHoldsFloat_eq items]

theorem anyValueHoldsFloat_eq : (entries : Entries) →
    anyValueHoldsFloat entries = (entryLeaves entries).any isFloat
  | [] => rfl
  | (_, value) :: entries => by
    rw [anyValueHoldsFloat, entryLeaves, List.any_append, holdsFloat_eq value,
      anyValueHoldsFloat_eq entries]

end

end Value

namespace Arithmetic

/-- A float is inside of one of the operands. -/
def anyFloat (left right : Value) : Bool := (left.leaves ++ right.leaves).any Value.isFloat

theorem isFloat_of_not_anyFloat {left right leaf : Value} (h : anyFloat left right = false)
    (hleaf : leaf ∈ left.leaves ∨ leaf ∈ right.leaves) : leaf.isFloat = false := by
  rw [anyFloat, List.any_eq_false] at h
  exact Bool.eq_false_iff.mpr (h leaf (List.mem_append.mpr hleaf))

/-- What becomes of everything in two operands. -/
def promotion (left right : Value) : Value → Value :=
  if anyFloat left right then Value.floated else id

/-! ## Meeting as floats -/

def Meeting.floated : Meeting → Meeting
  | .scalars => .scalars
  | .each pairs rebuild => .each (pairs.map fun pair => (pair.1.floated, pair.2.floated)) rebuild
  | .refused cause => .refused cause

theorem Meeting.run_floated (site : Site) (element : ScalarOperation) (whole : Attempt Value)
    (meeting : Meeting) : meeting.floated.run site element whole =
      meeting.run site (fun left right => element left.floated right.floated) whole := by
  cases meeting with
  | scalars => rfl
  | each pairs rebuild =>
    rw [Meeting.floated, Meeting.run, List.mapM_map]
    rfl
  | refused cause => rfl

theorem underKeys_floated (entries : Entries) :
    underKeys (entries.map fun entry => (entry.1, entry.2.floated)) = underKeys entries := by
  funext values
  rw [underKeys, underKeys, List.map_map]
  rfl

theorem meeting_floated (left right : Value) :
    meeting left.floated right.floated = (meeting left right).floated := by
  cases left <;> cases right
  case array.array xs ys =>
    rw [Value.floated, Value.floated, Value.itemsFloated_eq, Value.itemsFloated_eq, meeting,
      meeting, List.length_map, List.length_map, List.zip_map]
    split <;> rfl
  all_goals
    simp [Value.floated, meeting, Meeting.floated, Value.itemsFloated_eq, Value.entriesFloated_eq,
      underKeys_floated]

theorem scalars_of_meeting {left right : Value} (h : meeting left right = .scalars) :
    left.isCompound = false ∧ right.isCompound = false := by
  unfold meeting at h
  split at h
  case h_1 => split at h <;> cases h
  case h_9 hleftArray hleftObject hrightArray hrightObject _ _ _ _ =>
    exact ⟨Value.not_compound hleftArray hleftObject, Value.not_compound hrightArray hrightObject⟩
  all_goals cases h

section

variable (site : Site)

/-- An operation on floats does the same as another one did on what they were before. -/
theorem broadcast_floated {operation other : ScalarOperation} {left right : Value}
    (hleft : left.IsOperand) (hright : right.IsOperand)
    (h : ∀ a ∈ left.leaves, ∀ b ∈ right.leaves, other a.floated b.floated = operation a b) :
    broadcast site other left.floated right.floated = broadcast site operation left right := by
  induction left, right using meeting_induction with
  | step left right ih =>
    rw [broadcast_eq site other hleft.floated.name?_eq hright.floated.name?_eq,
      broadcast_eq site operation hleft.name?_eq hright.name?_eq, meeting_floated,
      Meeting.run_floated]
    apply Meeting.run_congr
    case hscalars =>
      intro hmeeting
      obtain ⟨hl, hr⟩ := scalars_of_meeting hmeeting
      rw [Value.leaves_of_not_compound hl, Value.leaves_of_not_compound hr] at h
      exact h left List.mem_cons_self right List.mem_cons_self
    case heach =>
      intro pairs rebuild hmeeting pair hpair
      obtain ⟨hl, hr, -⟩ := parts_of_meeting hmeeting pair hpair
      exact ih pairs rebuild hmeeting pair hpair (hleft.part hl) (hright.part hr)
        fun a ha b hb => h a (hl.leaves_subset ha) b (hr.leaves_subset hb)

/-- What an operation on scalars comes to is all that there is inside of the result. -/
theorem leaves_of_broadcast {operation : ScalarOperation} {p : Value → Prop}
    (h : ∀ a b value, operation a b = .ok value → value.isCompound = false ∧ p value)
    {left right result : Value} (hresult : broadcast site operation left right = .ok result) :
    ∀ leaf ∈ result.leaves, p leaf := by
  induction left, right using broadcast_induction site operation generalizing result with
  | name => cases hresult
  | refused => cases hresult
  | scalars left right =>
    obtain ⟨hscalar, hp⟩ := h left right result hresult
    rw [Value.leaves_of_not_compound hscalar, List.forall_mem_singleton]
    exact hp
  | each left right pairs rebuild hmeeting ih =>
    rw [map_eq_pure_bind] at hresult
    obtain ⟨values, hvalues, hresult⟩ := Attempt.bind_eq_ok.mp hresult
    cases hresult
    intro leaf hleaf
    obtain ⟨value, hvalue, hleaf⟩ := leaves_rebuild hmeeting hleaf
    obtain ⟨pair, hpair, hvalue⟩ := Attempt.mem_of_mapM_eq_ok hvalues value hvalue
    exact ih pair hpair hvalue leaf hleaf

/-! ## Scalars -/

theorem wholeScalars_eq_ok {expected : Expected} {f : Int → Int → Option Int} {a b value : Value}
    (h : wholeScalars site expected f a b = .ok value) :
    value.isCompound = false ∧ value.isInt = true := by
  unfold wholeScalars at h
  split at h
  · split at h <;> cases h
    exact ⟨rfl, rfl⟩
  · cases h

theorem realScalars_eq_ok {f : Float → Float → Float} {a b value : Value}
    (h : realScalars site f a b = .ok value) : value.isCompound = false ∧ value.isFloat = true := by
  unfold realScalars at h
  split at h
  · obtain ⟨x, -, h⟩ := Attempt.bind_eq_ok.mp h
    obtain ⟨y, -, h⟩ := Attempt.bind_eq_ok.mp h
    unfold finished at h
    split at h
    · cases h
    · split at h <;> cases h
      exact ⟨rfl, rfl⟩
  · cases h

theorem promoted?_floated {value : Value} (h : value.isOperand = true) :
    promoted? value.floated = promoted? value := by
  cases value with
  | int n => exact congrArg some (toFloat_eq h).symm
  | _ => rfl

theorem realScalars_floated (f : Float → Float → Float) {a b : Value} (ha : a.isOperand = true)
    (hb : b.isOperand = true) :
    realScalars site f a.floated b.floated = realScalars site f a b := by
  rw [realScalars, realScalars, promoted?_floated ha, promoted?_floated hb]

/-- Where nothing turns into a float, there is no number at all. -/
theorem wholeScalars_floated (f : Float → Float → Float) (g : Int → Int → Option Int) {a : Value}
    (b : Value) (ha : a.floated.isFloat = false) :
    wholeScalars site .number g a.floated b.floated = realScalars site f a b := by
  cases a with
  | int | float => cases ha
  | _ => rfl

end

end Arithmetic

/-! ## Operators -/

open Arithmetic

namespace Operator

variable (site : Site) {operator : Operator} {f : Float → Float → Float}
  {left right x y : Value}

/-- What is done to the scalars in two operands. -/
def onScalars (operator : Operator) (f : Float → Float → Float) (left right : Value) :
    ScalarOperation :=
  if anyFloat left right then realScalars site f else wholeScalars site .number operator.onInts

theorem apply_eq (hf : operator.onFloats? = some f) (hleft : left.IsOperand)
    (hright : right.IsOperand) :
    operator.apply site left right =
      broadcast site (onScalars site operator f left right) left right := by
  have hstring : ¬(operator = .add ∧ (left.isString = true ∨ right.isString = true)) := by
    rw [hleft.isString_eq, hright.isString_eq]
    simp
  rw [apply, if_neg hstring, calculate, hf, onScalars, anyFloat, List.any_append,
    ← Value.holdsFloat_eq, ← Value.holdsFloat_eq]
  dsimp only
  split <;> rfl

theorem apply_floated (hf : operator.onFloats? = some f) (hleft : left.IsOperand)
    (hright : right.IsOperand) :
    operator.apply site left.floated right.floated =
      broadcast site (realScalars site f) left right := by
  rw [apply_eq site hf hleft.floated hright.floated, onScalars]
  split
  case isTrue =>
    exact broadcast_floated site hleft hright fun a ha b hb =>
      realScalars_floated site f (hleft a ha) (hright b hb)
  case isFalse hfloat =>
    refine broadcast_floated site hleft hright fun a ha b _ => wholeScalars_floated site f _ b ?_
    have hfloated : a.floated ∈ left.floated.leaves := by
      rw [Value.leaves_floated]
      exact List.mem_map_of_mem ha
    exact isFloat_of_not_anyFloat (Bool.eq_false_iff.mpr hfloat) (.inl hfloated)

/-- Parts of the operands stay what they are to each other after the promotion. -/
theorem apply_promotion (hf : operator.onFloats? = some f) (hx : x.IsOperand) (hy : y.IsOperand)
    (hleft : ∀ leaf ∈ x.leaves, leaf ∈ left.leaves)
    (hright : ∀ leaf ∈ y.leaves, leaf ∈ right.leaves) :
    operator.apply site (promotion left right x) (promotion left right y) =
      broadcast site (onScalars site operator f left right) x y := by
  unfold promotion onScalars
  split
  case isTrue => exact apply_floated site hf hx hy
  case isFalse hfloat =>
    have hnone : anyFloat x y = false := by
      rw [anyFloat, List.any_eq_false]
      intro leaf hleaf
      rw [Bool.not_eq_true]
      apply isFloat_of_not_anyFloat (Bool.eq_false_iff.mpr hfloat)
      exact (List.mem_append.mp hleaf).imp (hleft leaf) (hright leaf)
    rw [id, id, apply_eq site hf hx hy, onScalars, hnone]
    rfl

/-- The operation on two parts of its operands, which turns their integers into floats first. -/
def onParts (operator : Operator) (left right : Value) : ScalarOperation := fun x y =>
  operator.apply site (promotion left right x) (promotion left right y)

theorem apply_eq_run (hf : operator.onFloats? = some f) (hleft : left.IsOperand)
    (hright : right.IsOperand) :
    operator.apply site left right =
      (meeting left right).run site (onParts site operator left right)
        (onParts site operator left right left right) := by
  have hwhole : onParts site operator left right left right = operator.apply site left right :=
    (apply_promotion site hf hleft hright (fun _ h => h) (fun _ h => h)).trans
      (apply_eq site hf hleft hright).symm
  rw [hwhole, apply_eq site hf hleft hright, broadcast_eq site _ hleft.name?_eq hright.name?_eq]
  apply Meeting.run_congr
  case hscalars =>
    intro hmeeting
    rw [hmeeting]
    rfl
  case heach =>
    intro pairs rebuild hmeeting pair hpair
    obtain ⟨hl, hr, -⟩ := parts_of_meeting hmeeting pair hpair
    exact (apply_promotion site hf (hleft.part hl) (hright.part hr) (fun _ => hl.leaves_subset)
      (fun _ => hr.leaves_subset)).symm

theorem leaves_of_apply (hf : operator.onFloats? = some f) (hleft : left.IsOperand)
    (hright : right.IsOperand) {result leaf : Value}
    (hresult : operator.apply site left right = .ok result) (hleaf : leaf ∈ result.leaves) :
    if anyFloat left right then leaf.isFloat = true else leaf.isInt = true := by
  rw [apply_eq site hf hleft hright, onScalars] at hresult
  split
  case isTrue hfloat =>
    rw [if_pos hfloat] at hresult
    exact leaves_of_broadcast site (fun _ _ _ => realScalars_eq_ok site) hresult leaf hleaf
  case isFalse hfloat =>
    rw [if_neg hfloat] at hresult
    exact leaves_of_broadcast site (fun _ _ _ => wholeScalars_eq_ok site) hresult leaf hleaf

/--
Two operands meet pair by pair, and each pair is worked out as if it were two operands of its own,
after all integers have been made floats if there is a float anywhere. So the first pair that fails
makes the whole operation fail, and the result holds floats only or integers only.
-/
theorem apply_elementwise
    (hoperator : operator ∈ [add, subtract, multiply, divide, remainder, power])
    (hleft : left.IsOperand) (hright : right.IsOperand) :
    operator.apply site left right =
      (meeting left right).run site (onParts site operator left right)
        (onParts site operator left right left right) ∧
    (∀ pairs rebuild, meeting left right = .each pairs rebuild →
      (operator.apply site left right).failure? =
        pairs.findSome? fun pair => (onParts site operator left right pair.1 pair.2).failure?) ∧
    ∀ result, operator.apply site left right = .ok result → ∀ leaf ∈ result.leaves,
      if anyFloat left right then leaf.isFloat = true else leaf.isInt = true := by
  obtain ⟨f, hf⟩ : ∃ f, operator.onFloats? = some f := by
    simp only [List.mem_cons, List.not_mem_nil, or_false] at hoperator
    rcases hoperator with rfl | rfl | rfl | rfl | rfl | rfl <;> exact ⟨_, rfl⟩
  refine ⟨apply_eq_run site hf hleft hright, fun pairs rebuild hmeeting => ?_,
    fun result hresult leaf => leaves_of_apply site hf hleft hright hresult⟩
  rw [apply_eq_run site hf hleft hright, hmeeting, Meeting.run, Attempt.failure?_map,
    Attempt.failure?_mapM]

/-- A float in one place makes a division of integers in another place one of floats. -/
theorem apply_elementwise_mixed :
    let left := Value.array [.int 7, .array [.float 0.5]]
    let right := Value.array [.int 2, .int 4]
    divide ∈ [add, subtract, multiply, divide, remainder, power] ∧ left.IsOperand ∧
    right.IsOperand ∧
    divide.apply ⟨"q", 0⟩ left right = .array <$>
      [(Value.float (Float.ofInt 7), Value.float (Float.ofInt 2)),
        (.array [.float 0.5], .float (Float.ofInt 4))].mapM fun pair =>
          divide.apply ⟨"q", 0⟩ pair.1 pair.2 := by
  intro left right
  have hoperator : divide ∈ [add, subtract, multiply, divide, remainder, power] := by decide
  have hleft : left.IsOperand := by decide
  have hright : right.IsOperand := by decide
  obtain ⟨hrun, -⟩ := apply_elementwise ⟨"q", 0⟩ hoperator hleft hright
  exact ⟨hoperator, hleft, hright, hrun⟩

end Operator

end Calculator
