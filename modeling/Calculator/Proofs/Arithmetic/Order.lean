import Calculator.Arithmetic.Comparison
import Calculator.Decorator.Builtins
import Calculator.Proofs.Function.Builtin
import Calculator.Proofs.Number.Nearest

/-!
# The order of integers

Integers are equal when they are the same, but they are put in order by their nearest floats. No
order is turned around, and up to fifty-three bits none is lost. Where two integers share a float,
neither of them is less. The smallest and the largest integer are found without floats.
-/

namespace Calculator

open Number

namespace Comparator

/-- What is asked of two integers. -/
def relates : Comparator → Int → Int → Bool
  | eq, a, b => a = b
  | ne, a, b => a ≠ b
  | lt, a, b => a < b
  | gt, a, b => b < a
  | le, a, b => a ≤ b
  | ge, a, b => b ≤ a

variable {a b : Int} (site : Site)

theorem equal?_int (a b : Int) : (Value.int a).equal? (.int b) = .ok (decide (a = b)) := by
  rw [Value.equal?, Value.equal, Value.sameAs]
  rfl

theorem compare_same {comparator : Comparator} (h : comparator = eq ∨ comparator = ne) :
    compare site comparator (.int a) (.int b) = .ok (comparator.relates a b) := by
  rcases h with rfl | rfl
  · rw [compare, equal?_int]
    rfl
  · rw [compare, equal?_int, relates, decide_not]
    rfl

theorem sidesOf_ints (ha : inRange a = true) (hb : inRange b = true) :
    Sides.of site (.int a) (.int b) = .ok (.floats (Float.ofInt a) (Float.ofInt b)) := by
  have hcomparable {n : Int} (h : inRange n = true) :
      comparable site (.int n) = .ok (Float.ofInt n) := by
    simp only [comparable, Value.float?, toFloat_eq h]
    rfl
  simp only [Sides.of, hcomparable ha, hcomparable hb]
  rfl

/-- The order is the one of the nearest floats. -/
theorem compare_order {comparator : Comparator} (h : ¬(comparator = eq ∨ comparator = ne))
    (ha : inRange a = true) (hb : inRange b = true) :
    compare site comparator (.int a) (.int b) =
      .ok (comparator.relates (nearest a) (nearest b)) := by
  cases comparator
  case eq | ne => simp at h
  all_goals
    simp only [compare, sidesOf_ints site ha hb]
    refine congrArg Except.ok (decide_eq_decide.mpr ?_)
  case lt => exact ofInt_lt ha hb
  case gt => exact ofInt_lt hb ha
  case le => exact ofInt_le ha hb
  case ge => exact ofInt_le hb ha

/-- Rounding can only make two integers equal. -/
theorem relates_nearest (h : nearest a = nearest b → a = b) (comparator : Comparator) :
    comparator.relates (nearest a) (nearest b) = comparator.relates a b := by
  have hab := nearest_lt_iff h
  have hba : nearest b < nearest a ↔ b < a := nearest_lt_iff fun heq => (h heq.symm).symm
  have heq : nearest a = nearest b ↔ a = b := ⟨h, congrArg nearest⟩
  cases comparator <;> refine decide_eq_decide.mpr ?_
  case eq => exact heq
  case ne => exact not_congr heq
  case lt => exact hab
  case gt => exact hba
  case le => rw [← Int.not_lt, hba, Int.not_lt]
  case ge => rw [← Int.not_lt, hab, Int.not_lt]

theorem relates_self (comparator : Comparator) (a b : Int) :
    comparator.relates a a = comparator.relates b b := by
  cases comparator <;> simp [relates]

/-- Two integers with the same nearest float are in the order of one with itself. -/
theorem compare_shared {comparator : Comparator} (h : ¬(comparator = eq ∨ comparator = ne))
    (ha : inRange a = true) (hb : inRange b = true) (heq : nearest a = nearest b) :
    compare site comparator (.int a) (.int b) = .ok (comparator.relates a a) := by
  rw [compare_order site h ha hb, ← heq]
  exact congrArg Except.ok (relates_self comparator _ a)

theorem compare_exact_iff (ha : inRange a = true) (hb : inRange b = true) :
    (∀ comparator, compare site comparator (.int a) (.int b) = .ok (comparator.relates a b)) ↔
      (nearest a = nearest b → a = b) := by
  constructor
  · intro h heq
    -- With one float for both, neither is less, so neither may be less as an integer.
    have hlt := (compare_order site (by decide) ha hb).symm.trans (h lt)
    have hgt := (compare_order site (by decide) ha hb).symm.trans (h gt)
    simp only [relates, Except.ok.injEq, decide_eq_decide, heq, Int.lt_irrefl, false_iff] at hlt hgt
    omega
  · intro h comparator
    by_cases hsame : comparator = eq ∨ comparator = ne
    · exact compare_same site hsame
    · rw [compare_order site hsame ha hb, relates_nearest h]

end Comparator

/-! ## The smallest and the largest -/

namespace Number

theorem signed_natAbs (n : Int) : signed (n < 0) n.natAbs = n := by
  unfold signed
  split
  case isTrue h =>
    have hneg := of_decide_eq_true h
    omega
  case isFalse h =>
    have hnonneg := of_decide_eq_false (Bool.eq_false_iff.mpr h)
    omega

theorem less_ofInt (a b : Int) : (Exact.ofInt a).less (.ofInt b) = decide (a < b) := by
  simp [Exact.ofInt, Exact.less, align, signed_natAbs]

end Number

namespace Builtin

open Evaluation

theorem less_exactly (a b : Int) :
    (exactly (.int a)).less (exactly (.int b)) = decide (a < b) := less_ofInt a b

variable (site : Site) (signature : Signature) (a b : Int)

/-- A call with two integers. -/
def pairCall : Call := ⟨site, signature, ⟨[("n", [.int a, .int b])], [.int a, .int b]⟩⟩

theorem extreme_pair (better : Value → Value → Bool) :
    extreme better (pairCall site signature a b) =
      .ok (if better (.int b) (.int a) then .int b else .int a) := rfl

theorem least_pair : least (pairCall site signature a b) = .ok (.int (min a b)) := by
  simp only [least, extreme_pair, less_exactly, decide_eq_true_eq]
  split
  case isTrue hlt => rw [Int.min_eq_right (Int.le_of_lt hlt)]
  case isFalse hge => rw [Int.min_eq_left (Int.not_lt.mp hge)]

theorem largest_pair : largest (pairCall site signature a b) = .ok (.int (max a b)) := by
  simp only [largest, extreme_pair, less_exactly, decide_eq_true_eq]
  split
  case isTrue hlt => rw [Int.max_eq_right (Int.le_of_lt hlt)]
  case isFalse hge => rw [Int.max_eq_left (Int.not_lt.mp hge)]

theorem callName_pair {setting : Setting} {name description : String} {f : Call → Attempt Value}
    (deeper : Deeper) (memory : Memory) (h : setting.HasBuiltin name)
    (hfunction : FunctionTable.builtin.find? name =
      some (math name [{ Parameter.number "n" with plural := true }] description f)) :
    callName setting deeper site name [.int a, .int b] memory =
      (f (pairCall site ⟨name, [{ Parameter.number "n" with plural := true }]⟩ a b), memory) := by
  refine callName_builtin h hfunction rfl ?_ deeper memory
  refine Signature.bind_plural site name rfl (List.cons_ne_nil _ _) fun value hvalue => ?_
  simp only [List.mem_cons, List.not_mem_nil, or_false] at hvalue
  rcases hvalue with rfl | rfl <;> rfl

end Builtin

open Comparator Evaluation

/--
All comparisons of two integers are right exactly when the two do not share their nearest float, as
two of at most fifty-three bits never do. With the same float, neither of them is less. Whether they
are equal is always right, and so are the smallest and the largest.
-/
theorem compare_ints {setting : Setting} (site : Site) (deeper : Deeper) (memory : Memory)
    {a b : Int} (ha : inRange a = true) (hb : inRange b = true) (hmin : setting.HasBuiltin "min")
    (hmax : setting.HasBuiltin "max") :
    ((∀ comparator, compare site comparator (.int a) (.int b) = .ok (comparator.relates a b)) ↔
      ((Float.ofInt a == Float.ofInt b) = true → a = b)) ∧
    (a.natAbs ≤ 2 ^ 53 → b.natAbs ≤ 2 ^ 53 → (Float.ofInt a == Float.ofInt b) = true → a = b) ∧
    (∀ comparator ∈ [lt, gt, le, ge], (Float.ofInt a == Float.ofInt b) = true →
      compare site comparator (.int a) (.int b) = .ok (comparator.relates a a)) ∧
    (∀ comparator ∈ [eq, ne],
      compare site comparator (.int a) (.int b) = .ok (comparator.relates a b)) ∧
    callName setting deeper site "min" [.int a, .int b] memory = (.ok (.int (min a b)), memory) ∧
    callName setting deeper site "max" [.int a, .int b] memory = (.ok (.int (max a b)), memory) := by
  rw [ofInt_beq ha hb]
  refine ⟨compare_exact_iff site ha hb, ?_, ?_, ?_, ?_, ?_⟩
  · intro hsmall hsmall' heq
    rwa [nearest_eq_self hsmall, nearest_eq_self hsmall'] at heq
  · intro comparator hmem heq
    have horder : ¬(comparator = eq ∨ comparator = ne) := by
      rintro (rfl | rfl) <;> simp at hmem
    exact compare_shared site horder ha hb heq
  · intro comparator hmem
    exact compare_same site (by simpa using hmem)
  · rw [Builtin.callName_pair site a b deeper memory hmin rfl, Builtin.least_pair]
  · rw [Builtin.callName_pair site a b deeper memory hmax rfl, Builtin.largest_pair]

/-- Two odd numbers of fifty-four bits, which are rounded apart. -/
theorem compare_ints_apart :
    let setting : Setting := ⟨50, .builtin, .builtin, none, .still⟩
    let a : Int := 9007199254740993
    let b : Int := 9007199254740995
    inRange a = true ∧ inRange b = true ∧ setting.HasBuiltin "min" ∧ setting.HasBuiltin "max" ∧
    ∀ comparator, compare ⟨"q", 0⟩ comparator (.int a) (.int b) = .ok (comparator.relates a b) := by
  intro setting a b
  have ha : inRange a = true := by decide
  have hb : inRange b = true := by decide
  have hmin : setting.HasBuiltin "min" := ⟨rfl, nofun⟩
  have hmax : setting.HasBuiltin "max" := ⟨rfl, nofun⟩
  have hapart : (Float.ofInt a == Float.ofInt b) = false := by decide +kernel
  refine ⟨ha, hb, hmin, hmax, ?_⟩
  refine (compare_ints ⟨"q", 0⟩ (fun _ => pure .none) .empty ha hb hmin hmax).1.mpr fun hsame => ?_
  rw [hapart] at hsame
  cases hsame

/-- The smallest two numbers that share a float. Neither is one less, nor are they equal. -/
theorem compare_ints_shared :
    let a : Int := 9007199254740992
    let b : Int := 9007199254740993
    let answer comparator := compare ⟨"q", 0⟩ comparator (.int a) (.int b)
    inRange a = true ∧ inRange b = true ∧ a < b ∧ answer lt = .ok false ∧ answer eq = .ok false ∧
      answer gt = .ok false ∧ answer le = .ok true ∧ answer ge = .ok true := by
  intro a b answer
  have ha : inRange a = true := by decide
  have hb : inRange b = true := by decide
  have hnearest : nearest a = nearest b := by decide +kernel
  have hshared {comparator : Comparator} (h : ¬(comparator = eq ∨ comparator = ne)) :
      answer comparator = .ok (comparator.relates a a) := compare_shared _ h ha hb hnearest
  exact ⟨ha, hb, by decide, hshared (by decide), compare_same _ (.inl rfl), hshared (by decide),
    hshared (by decide), hshared (by decide)⟩

end Calculator
