import Calculator.Decorator.Builtins
import Calculator.Evaluation.Script
import Calculator.Proofs.Arithmetic.Meeting
import Calculator.Proofs.Function.Builtin
import Calculator.Proofs.Number.Rational

/-!
# Rounding to integers

Rounding reaches every number inside of a value. Integers stay, and floats become the integers above
or below them. The first float without an integer in range decides what is said instead: an overflow
if the float is finite, and a fault if it is not.
-/

namespace Calculator

/-! ## Functions of one number inside of a value -/

namespace Value

mutual

/-- Other scalars in the places of the old ones. Keys stay. -/
def mapLeaves (image : Value → Value) : Value → Value
  | array items => array (mapItemLeaves image items)
  | object entries => object (mapEntryLeaves image entries)
  | value => image value

def mapItemLeaves (image : Value → Value) : List Value → List Value
  | [] => []
  | item :: items => mapLeaves image item :: mapItemLeaves image items

def mapEntryLeaves (image : Value → Value) : Entries → Entries
  | [] => []
  | (key, value) :: entries => (key, mapLeaves image value) :: mapEntryLeaves image entries

end

end Value

/-- A number becomes its image unless there is trouble with it. -/
def MapsNumbers (f : Value → Attempt Value) (trouble? : Value → Option Failure)
    (image : Value → Value) : Prop :=
  ∀ leaf, leaf.isNumeric = true → f leaf = .orElseFail (trouble? leaf) (image leaf)

section

variable {site : Site} {f : Value → Attempt Value} {trouble? : Value → Option Failure}
  {image : Value → Value}

mutual

/-- The first number that there is trouble with decides. -/
theorem mapNumbers_eq (hf : MapsNumbers f trouble? image) : (value : Value) →
    (∀ leaf ∈ value.leaves, leaf.isNumeric = true) →
    mapNumbers site f value =
      .orElseFail (value.leaves.findSome? trouble?) (value.mapLeaves image)
  | .int n, _ | .float x, _ => by
    rw [mapNumbers, hf _ rfl]
    simp [Value.leaves, Value.mapLeaves]
  | .array items, h => by
    rw [mapNumbers, mapNumbersIn_eq hf items h]
    exact Attempt.orElseFail_map _ _ _
  | .object entries, h => by
    rw [mapNumbers, mapNumbersAmong_eq hf entries h]
    exact Attempt.orElseFail_map _ _ _
  | .none, h | .bool _, h | .string _, h | .name _, h => nomatch h _ (List.mem_singleton_self _)

theorem mapNumbersIn_eq (hf : MapsNumbers f trouble? image) : (items : List Value) →
    (∀ leaf ∈ Value.itemLeaves items, leaf.isNumeric = true) →
    mapNumbersIn site f items =
      .orElseFail ((Value.itemLeaves items).findSome? trouble?) (Value.mapItemLeaves image items)
  | [], _ => rfl
  | item :: items, h => by
    obtain ⟨hitem, hitems⟩ := List.forall_mem_append.mp h
    rw [mapNumbersIn, mapNumbers_eq hf item hitem, mapNumbersIn_eq hf items hitems,
      Value.itemLeaves, List.findSome?_append]
    exact Attempt.orElseFail_map₂ _ _ _ _ _

theorem mapNumbersAmong_eq (hf : MapsNumbers f trouble? image) : (entries : Entries) →
    (∀ leaf ∈ Value.entryLeaves entries, leaf.isNumeric = true) →
    mapNumbersAmong site f entries =
      .orElseFail ((Value.entryLeaves entries).findSome? trouble?)
        (Value.mapEntryLeaves image entries)
  | [], _ => rfl
  | (key, value) :: entries, h => by
    obtain ⟨hvalue, hentries⟩ := List.forall_mem_append.mp h
    rw [mapNumbersAmong, mapNumbers_eq hf value hvalue, mapNumbersAmong_eq hf entries hentries,
      Value.entryLeaves, List.findSome?_append]
    exact Attempt.orElseFail_map₂ _ _ _ _ _

end

end

/-! ## Up and down -/

inductive Rounding where
  | up | down

namespace Rounding

def name : Rounding → String
  | up => "ceil"
  | down => "floor"

/-- To the closest integer that is not on the other side. -/
def round : Rounding → ℚ → ℤ
  | up => Int.ceil
  | down => Int.floor

/-- With a result for every finite float, in range or not. -/
def whole : Rounding → Float → Except Fault Int
  | up => Number.ceiling
  | down => Number.floor

variable (rounding : Rounding) (site : Site)

theorem whole_eq (x : Float) : rounding.whole x =
    match Number.rational? x with
    | some q => .ok (rounding.round q)
    | none => .error (Number.wholeFault x) := by
  cases rounding with
  | up => exact Number.ceiling_eq x
  | down => exact Number.floor_eq x

/-- The integer that the float is rounded to, if the float is finite and the integer in range. -/
def rounded? (x : Float) : Option Int :=
  ((Number.rational? x).map rounding.round).filter inRange

/-- Integers stay. -/
def image : Value → Value
  | .float x => ((rounding.rounded? x).map .int).getD (.float x)
  | value => value

/-- What is said of a float that is not rounded. -/
def failure (x : Float) : Failure :=
  if x.isFinite then .located site .overflow else .fault (Number.wholeFault x)

def trouble? : Value → Option Failure
  | .float x => if (rounding.rounded? x).isSome then none else some (failure site x)
  | _ => none

variable {rounding site}

theorem rounded?_eq_none {x : Float} {q : ℚ} (h : Number.rational? x = some q) :
    rounding.rounded? x = none ↔ inRange (rounding.round q) = false := by
  simp [rounded?, h]

theorem trouble?_eq_some {leaf : Value} {why : Failure} :
    rounding.trouble? site leaf = some why ↔
      ∃ x, leaf = .float x ∧ rounding.rounded? x = none ∧ why = failure site x := by
  cases leaf with
  | float x =>
    rw [trouble?]
    cases h : rounding.rounded? x with
    | none => simp [h, @eq_comm _ why]
    | some n => simp [h]
  | _ => simp [trouble?]

theorem trouble?_eq_none {leaf : Value} : rounding.trouble? site leaf = none ↔
    ∀ x, leaf = .float x → (rounding.rounded? x).isSome := by
  cases leaf with
  | float x => simp [trouble?, Option.isSome_iff_ne_none]
  | _ => simp [trouble?]

variable {leaves : List Value}

theorem findSome?_trouble?_eq_none : leaves.findSome? (rounding.trouble? site) = none ↔
    ∀ x, .float x ∈ leaves → (rounding.rounded? x).isSome := by
  simp only [List.findSome?_eq_none_iff, trouble?_eq_none]
  exact ⟨fun h x hmem => h _ hmem x rfl, fun h leaf hmem x hleaf => h x (hleaf ▸ hmem)⟩

theorem findSome?_trouble?_eq_some {why : Failure} :
    leaves.findSome? (rounding.trouble? site) = some why ↔
      ∃ before x after, leaves = before ++ .float x :: after ∧
        (∀ y, .float y ∈ before → (rounding.rounded? y).isSome) ∧
        rounding.rounded? x = none ∧ why = failure site x := by
  rw [List.findSome?_eq_some_iff]
  constructor
  · rintro ⟨before, leaf, after, rfl, hleaf, hbefore⟩
    obtain ⟨x, rfl, hx, rfl⟩ := trouble?_eq_some.mp hleaf
    exact ⟨before, x, after, rfl,
      findSome?_trouble?_eq_none.mp (List.findSome?_eq_none_iff.mpr hbefore), hx, rfl⟩
  · rintro ⟨before, x, after, rfl, hbefore, hx, rfl⟩
    exact ⟨before, .float x, after, rfl, trouble?_eq_some.mpr ⟨x, rfl, hx, rfl⟩,
      List.findSome?_eq_none_iff.mp (findSome?_trouble?_eq_none.mpr hbefore)⟩

/-- Among finite floats it does not matter which one is first. -/
theorem findSome?_trouble?_eq_overflow (hfinite : ∀ x, .float x ∈ leaves → x.isFinite) :
    leaves.findSome? (rounding.trouble? site) = some (.located site .overflow) ↔
      ∃ x q, .float x ∈ leaves ∧ Number.rational? x = some q ∧
        inRange (rounding.round q) = false := by
  constructor
  · intro h
    obtain ⟨before, x, after, rfl, -, hx, -⟩ := findSome?_trouble?_eq_some.mp h
    have hmem : .float x ∈ before ++ .float x :: after := by simp
    have hrational := (Number.isSome_rational? x).trans (hfinite x hmem)
    obtain ⟨q, hq⟩ := Option.isSome_iff_exists.mp hrational
    exact ⟨x, q, hmem, hq, (rounded?_eq_none hq).mp hx⟩
  · rintro ⟨x, q, hmem, hq, hrange⟩
    have hsome : leaves.findSome? (rounding.trouble? site) ≠ none := by
      intro h
      have hx := findSome?_trouble?_eq_none.mp h x hmem
      rw [(rounded?_eq_none hq).mpr hrange] at hx
      cases hx
    obtain ⟨why, hwhy⟩ := Option.ne_none_iff_exists'.mp hsome
    obtain ⟨before, y, after, rfl, -, -, rfl⟩ := findSome?_trouble?_eq_some.mp hwhy
    rw [hwhy, failure, if_pos (hfinite y (by simp))]

/-- The conversion comes before the look at the range. -/
theorem mapsNumbers (call : Call) :
    MapsNumbers
      (fun
        | .float x => do
          let n ← Attempt.ofFault (rounding.whole x)
          if inRange n then return .int n else call.fail .overflow
        | value => return value)
      (rounding.trouble? call.site) rounding.image := by
  intro leaf hleaf
  cases leaf with
  | int => rfl
  | float x =>
    have hfinite := Number.isSome_rational? x
    dsimp only
    rw [whole_eq, trouble?, image, rounded?, failure]
    cases hq : Number.rational? x with
    | none =>
      rw [hq] at hfinite
      simp [← hfinite, Attempt.ofFault, Attempt.orElseFail, bind, Except.bind]
    | some q =>
      rw [hq] at hfinite
      by_cases hrange : inRange (rounding.round q) = true
      · simp [hrange, Attempt.ofFault, Attempt.orElseFail, bind, Except.bind, Option.filter, pure,
          Except.pure]
      · simp [hrange, ← hfinite, Attempt.ofFault, Attempt.orElseFail, bind, Except.bind,
          Option.filter, Call.fail, Attempt.fail]
  | _ => cases hleaf

end Rounding

namespace Evaluation

variable {setting : Setting} {rounding : Rounding} {value : Value}

theorem admits_of_numeric (h : ∀ leaf ∈ value.leaves, leaf.isNumeric = true) :
    Expected.number.admits value = true := by
  rw [Expected.admits]
  cases hcompound : value.isCompound with
  | true => rfl
  | false =>
    rw [Value.leaves_of_not_compound hcompound] at h
    exact h value (List.mem_singleton_self _)

/-- A call comes to what the first float that does not fit says, or to a value of the same shape. -/
theorem callName_rounding (h : setting.HasBuiltin rounding.name)
    (hvalue : ∀ leaf ∈ value.leaves, leaf.isNumeric = true) (deeper : Deeper) (site : Site)
    (memory : Memory) :
    callName setting deeper site rounding.name [value] memory =
      (Attempt.orElseFail (value.leaves.findSome? (rounding.trouble? site))
        (value.mapLeaves rounding.image), memory) := by
  have hbound := Signature.bind_one site rounding.name (p := .number "n") ⟨rfl, rfl⟩
    (admits_of_numeric hvalue)
  have hmaps := rounding.mapsNumbers
    ⟨site, ⟨rounding.name, [.number "n"]⟩, ⟨[("n", [value])], [value]⟩⟩
  have hresult : mapNumbers site _ value = _ := mapNumbers_eq hmaps value hvalue
  cases rounding with
  | up => rw [callName_builtin h rfl rfl hbound]; exact congrArg (·, memory) hresult
  | down => rw [callName_builtin h rfl rfl hbound]; exact congrArg (·, memory) hresult

/--
What rounding comes to. Floats that are not finite are converted before anything looks at them, so
that the program stops at them.
-/
theorem rounds_or_overflows (h : setting.HasBuiltin rounding.name)
    (hvalue : ∀ leaf ∈ value.leaves, leaf.isNumeric = true) (deeper : Deeper) (site : Site)
    (memory : Memory) :
    ∃ result, callName setting deeper site rounding.name [value] memory = (result, memory) ∧
      (∀ w, result = .ok w ↔
        (∀ x, .float x ∈ value.leaves → (rounding.rounded? x).isSome) ∧
          w = value.mapLeaves rounding.image) ∧
      (∀ why, result = .error why ↔
        ∃ before x after, value.leaves = before ++ .float x :: after ∧
          (∀ y, .float y ∈ before → (rounding.rounded? y).isSome) ∧
          rounding.rounded? x = none ∧ why = Rounding.failure site x) ∧
      ((∀ x, .float x ∈ value.leaves → x.isFinite) →
        (result = .error (.located site .overflow) ↔
          ∃ x q, .float x ∈ value.leaves ∧ Number.rational? x = some q ∧
            inRange (rounding.round q) = false)) := by
  refine ⟨_, callName_rounding h hvalue deeper site memory, ?_, ?_, ?_⟩
  · intro w
    rw [Attempt.orElseFail_eq_ok, Rounding.findSome?_trouble?_eq_none]
  · intro why
    rw [Attempt.orElseFail_eq_error, Rounding.findSome?_trouble?_eq_some]
  · intro hfinite
    rw [Attempt.orElseFail_eq_error, Rounding.findSome?_trouble?_eq_overflow hfinite]

theorem rounds_or_overflows_nested :
    let setting : Setting := ⟨50, .builtin, .builtin, none, .still⟩
    let value : Value :=
      .object [(.string "k", .array [.float 2.5, .int 7]), (.int 0, .float (-0.5))]
    setting.HasBuiltin Rounding.up.name ∧ (∀ leaf ∈ value.leaves, leaf.isNumeric = true) ∧
    callName setting (fun _ => pure .none) ⟨"c", 0⟩ "ceil" [value] .empty =
      (.ok (.object [(.string "k", .array [.int 3, .int 7]), (.int 0, .int 0)]), .empty) := by
  intro setting value
  have hbuiltin : setting.HasBuiltin Rounding.up.name := ⟨rfl, nofun⟩
  have hnumeric : ∀ leaf ∈ value.leaves, leaf.isNumeric = true := by decide
  have hup : Rounding.up.rounded? 2.5 = some 3 := by decide +kernel
  have hzero : Rounding.up.rounded? (-0.5) = some 0 := by decide +kernel
  refine ⟨hbuiltin, hnumeric, ?_⟩
  obtain ⟨result, hcall, hok, -⟩ :=
    rounds_or_overflows hbuiltin hnumeric (fun _ => pure .none) ⟨"c", 0⟩ .empty
  have hfits : ∀ x, .float x ∈ value.leaves → (Rounding.up.rounded? x).isSome := by
    simp [value, Value.leaves, Value.entryLeaves, Value.itemLeaves, hup, hzero]
  have himage : value.mapLeaves Rounding.up.image =
      .object [(.string "k", .array [.int 3, .int 7]), (.int 0, .int 0)] := by
    simp [value, Value.mapLeaves, Value.mapEntryLeaves, Value.mapItemLeaves, Rounding.image, hup,
      hzero]
  rw [(hok _).mpr ⟨hfits, himage.symm⟩] at hcall
  exact hcall

/-- No overflow is said of an infinite number. -/
theorem evaluate_ceil_infinite :
    (evaluate ⟨50, .builtin, .builtin, none, .still⟩ "ceil(1e999)" .empty).1 =
      .error (.fault .wholeOfInfinite) := by
  have hrun : (match (evaluate ⟨50, .builtin, .builtin, none, .still⟩ "ceil(1e999)" .empty).1 with
      | .ok _ | .error (.error ..) => none
      | .error (.fault fault) => some fault) = some .wholeOfInfinite := by
    decide +kernel
  split at hrun
  case h_3 fault hresult => rw [hresult, Option.some.inj hrun]
  all_goals cases hrun

end Evaluation

end Calculator
