import Mathlib.Data.Int.ModEq
import Mathlib.Data.Nat.Factorial.Basic
import Mathlib.Data.Rat.Floor
import Mathlib.Tactic.Linarith
import Mathlib.Tactic.NormNum
import Calculator.Proofs.Arithmetic.Meeting
import Calculator.Proofs.Arithmetic.Range

/-!
# Exact arithmetic on integers

An operation on two integers comes to the number that it stands for, taken toward zero where that is
a fraction. Where there is no such number, or where it is out of range, the operation overflows.
-/

namespace Calculator

/-- The number without its fraction. -/
def wholePart (q : ℚ) : Int := if 0 ≤ q then ⌊q⌋ else ⌈q⌉

theorem wholePart_neg (q : ℚ) : wholePart (-q) = -wholePart q := by
  unfold wholePart
  rcases lt_trichotomy q 0 with hneg | rfl | hpos
  · rw [if_pos (by linarith), if_neg (by linarith), Int.floor_neg]
  · simp
  · rw [if_neg (by linarith), if_pos (by linarith), Int.ceil_neg]

theorem wholePart_intCast (n : Int) : wholePart n = n := by
  unfold wholePart
  split
  · exact Int.floor_intCast n
  · exact Int.ceil_intCast n

theorem wholePart_natCast_div (m n : Nat) : wholePart (m / n) = (m / n : Nat) := by
  unfold wholePart
  rw [if_pos (by positivity), Rat.floor_natCast_div_natCast, Int.natCast_ediv]

theorem wholePart_div (a b : Int) : wholePart (a / b) = a.tdiv b := by
  have hnat (m n : Nat) : wholePart ((m : ℚ) / (n : ℚ)) = Int.tdiv m n := by
    rw [wholePart_natCast_div, Int.ofNat_tdiv]
  obtain ⟨m, rfl | rfl⟩ := a.eq_nat_or_neg <;> obtain ⟨n, rfl | rfl⟩ := b.eq_nat_or_neg <;>
    simp only [Int.cast_neg, Int.cast_natCast, neg_div, div_neg, neg_neg, wholePart_neg,
      Int.neg_tdiv, Int.tdiv_neg, hnat]

/-- A fraction below one has no whole part. -/
theorem wholePart_inverse {n : Int} (h : 1 < n.natAbs) : wholePart (1 / n) = 0 := by
  have hdiv := wholePart_div 1 n
  rw [Int.cast_one] at hdiv
  rw [hdiv, ← Int.natAbs_eq_zero, Int.natAbs_tdiv]
  exact Nat.div_eq_of_lt h

namespace Arithmetic

theorem checked_eq_some {n : Int} (h : inRange n = true) : checked n = some n := if_pos h

theorem checked_eq_none {n : Int} (h : inRange n ≠ true) : checked n = none := if_neg h

/-! ## Quotient and remainder -/

/-- The lowest integer divided by minus one is the only quotient out of range. -/
theorem inRange_tdiv {a b : Int} (ha : inRange a = true) (hb : b ≠ 0)
    (hlowest : ¬(a = intMin ∧ b = -1)) : inRange (a.tdiv b) = true := by
  have hsize : (a.tdiv b).natAbs = a.natAbs / b.natAbs := Int.natAbs_tdiv a b
  rw [inRange_iff] at ha ⊢
  rcases (by omega : b = 1 ∨ b = -1 ∨ 2 ≤ b.natAbs) with rfl | rfl | hbig
  · rw [Int.tdiv_one]
    exact ha
  · have hne : a ≠ -0x8000000000000000 := fun h => hlowest ⟨h, rfl⟩
    rw [Int.tdiv_neg, Int.tdiv_one]
    omega
  · have hhalf : a.natAbs / b.natAbs ≤ a.natAbs / 2 := Nat.div_le_div_left hbig (by decide)
    omega

theorem divideInts_eq {a : Int} (ha : inRange a = true) (b : Int) :
    divideInts a b = if b = 0 ∨ a = intMin ∧ b = -1 then none else some (wholePart (a / b)) := by
  unfold divideInts
  rw [wholePart_div]
  by_cases hzero : b = 0
  · rw [if_pos hzero, if_pos (.inl hzero)]
  rw [if_neg hzero]
  by_cases hlowest : a = intMin ∧ b = -1
  · obtain ⟨rfl, rfl⟩ := hlowest
    rfl
  · rw [if_neg (not_or.mpr ⟨hzero, hlowest⟩)]
    exact checked_eq_some (inRange_tdiv ha hzero hlowest)

/-! ## Powers -/

/-- With an exponent above sixty-four, only powers of zero, one and minus one are in range. -/
theorem not_inRange_pow {a : Int} {n : Nat} (ha : 1 < a.natAbs) (hn : 64 < n) :
    inRange (a ^ n) ≠ true := by
  have hpow : 2 ^ 65 ≤ (a ^ n).natAbs := by
    rw [Int.natAbs_pow]
    calc 2 ^ 65 ≤ 2 ^ n := Nat.pow_le_pow_right (by decide) hn
      _ ≤ a.natAbs ^ n := Nat.pow_le_pow_left ha n
  rw [Ne, inRange_iff]
  omega

theorem wholePart_inverse_pow {a : Int} {n : Nat} (ha : a ≠ 0) (hn : n ≠ 0) :
    wholePart (1 / (a : ℚ) ^ n) = if a.natAbs = 1 then a ^ n else 0 := by
  split
  case isTrue hone =>
    -- The inverse of one or minus one is the number itself.
    have hinverse : 1 / (a : ℚ) ^ n = (a ^ n : Int) := by
      rcases Int.natAbs_eq_iff.mp hone with rfl | rfl
      · simp
      · rcases n.even_or_odd with heven | hodd
        · simp [heven.neg_one_pow]
        · simp [hodd.neg_one_pow]
    rw [hinverse, wholePart_intCast]
  case isFalse hmore =>
    rw [← Int.cast_pow]
    apply wholePart_inverse
    rw [Int.natAbs_pow]
    exact Nat.one_lt_pow hn (by omega)

theorem powerInts_eq (a b : Int) :
    powerInts a b =
      if 0 ≤ b ∧ b ≤ largestExponent ∧ inRange (a ^ b.natAbs) = true then some (a ^ b.natAbs)
      else if -largestExponent ≤ b ∧ b < 0 ∧ a ≠ 0 then
        some (wholePart (1 / (a : ℚ) ^ b.natAbs))
      else none := by
  have hpow : a.pow b.natAbs = a ^ b.natAbs := rfl
  unfold powerInts
  rw [hpow]
  by_cases hfar : largestExponent < b.natAbs
  · have hwhole : ¬(0 ≤ b ∧ b ≤ largestExponent ∧ inRange (a ^ b.natAbs) = true) := by omega
    have hfraction : ¬(-largestExponent ≤ b ∧ b < 0 ∧ a ≠ 0) := by omega
    rw [if_pos hfar, if_neg hwhole, if_neg hfraction]
  rw [if_neg hfar]
  by_cases hneg : b < 0
  · have hwhole : ¬(0 ≤ b ∧ b ≤ largestExponent ∧ inRange (a ^ b.natAbs) = true) := by omega
    rw [if_pos hneg, if_neg hwhole]
    by_cases hzero : a = 0
    · rw [if_pos hzero, if_neg fun h => h.2.2 hzero]
    · have hfraction : -largestExponent ≤ b ∧ b < 0 ∧ a ≠ 0 := ⟨by omega, hneg, hzero⟩
      rw [if_neg hzero, if_pos hfraction, wholePart_inverse_pow hzero (by omega), apply_ite some]
  · have hfraction : ¬(-largestExponent ≤ b ∧ b < 0 ∧ a ≠ 0) := fun h => hneg h.2.1
    rw [if_neg hneg, if_neg hfraction]
    by_cases hlarge : 1 < a.natAbs ∧ 64 < b
    · have hout : inRange (a ^ b.natAbs) ≠ true := not_inRange_pow hlarge.1 (by omega)
      rw [if_pos hlarge, if_neg fun h => hout h.2.2]
    · rw [if_neg hlarge]
      by_cases hfits : inRange (a ^ b.natAbs) = true
      · rw [if_pos ⟨by omega, by omega, hfits⟩, checked_eq_some hfits]
      · rw [if_neg fun h => hfits h.2.2, checked_eq_none hfits]

/-! ## Factorials -/

/-- Factorials only grow, so one that is out of range ends the multiplication for good. -/
theorem multiplyUp_factorial (m rounds : Nat) (h : inRange m.factorial = true) :
    multiplyUp m.factorial (m + 1) rounds = checked (m + rounds).factorial := by
  induction rounds generalizing m with
  | zero => exact (checked_eq_some h).symm
  | succ rounds ih =>
    have hnext : (m.factorial : Int) * (m + 1 : Nat) = (m + 1).factorial := by
      rw [Nat.factorial_succ, Nat.mul_comm, Int.natCast_mul]
    have hsum : m + 1 + rounds = m + (rounds + 1) := by omega
    rw [multiplyUp, hnext]
    split
    case isTrue hout =>
      have hgrows : (m + 1).factorial ≤ (m + (rounds + 1)).factorial :=
        Nat.factorial_le (by omega)
      refine (checked_eq_none ?_).symm
      rw [Ne, inRange_iff]
      simp only [intMax] at hout
      omega
    case isFalse hin =>
      rw [← hsum]
      apply ih
      rw [inRange_iff]
      simp only [intMax] at hin
      omega

theorem factorialNat_eq (n : Nat) : factorialNat n = checked n.factorial := by
  unfold factorialNat
  cases n with
  | zero => rfl
  | succ n =>
    have h := multiplyUp_factorial 1 n (by decide)
    rw [Nat.add_comm 1 n] at h
    exact h

/-! ## Negation and remainder -/

theorem negateInt_eq {a : Int} (ha : inRange a = true) :
    negateInt a = if a = intMin then none else some (-a) := by
  unfold negateInt
  split
  case isTrue hlowest =>
    subst hlowest
    rfl
  case isFalse hne =>
    apply checked_eq_some
    rw [inRange_iff] at ha ⊢
    simp only [intMin] at hne
    omega

theorem remainderInts_eq_some (a : Int) {b : Int} (hb : b ≠ 0) :
    ∃ r, remainderInts a b = some r ∧ 0 ≤ r ∧ r < |b| ∧ a ≡ r [ZMOD |b|] := by
  refine ⟨a % b, if_neg hb, Int.emod_nonneg a hb, Int.emod_lt_abs a hb, ?_⟩
  rw [Int.ModEq, Int.emod_abs, Int.emod_abs, Int.emod_emod]

end Arithmetic

open Arithmetic

/-! ## Operations on values -/

/-- The number, unless it is out of range. -/
def exactly (site : Site) (n : Int) : Attempt Value :=
  if inRange n then .ok (.int n) else Attempt.fail site .overflow

/-- The number, unless there is none. -/
def orOverflow (site : Site) : Option Int → Attempt Value
  | some n => .ok (.int n)
  | none => Attempt.fail site .overflow

theorem orOverflow_checked (site : Site) (n : Int) :
    orOverflow site (checked n) = exactly site n := by
  unfold checked exactly
  split <;> rfl

theorem wholeScalars_ints (site : Site) (expected : Expected) (f : Int → Int → Option Int)
    (a b : Int) : wholeScalars site expected f (.int a) (.int b) = orOverflow site (f a b) := by
  rw [wholeScalars]
  cases f a b <;> rfl

theorem Operator.apply_ints (site : Site) (operator : Operator) (a b : Int) :
    operator.apply site (.int a) (.int b) = orOverflow site (operator.onInts a b) := by
  have hstring : ¬(operator = .add ∧
      ((Value.int a).isString = true ∨ (Value.int b).isString = true)) := fun h =>
    h.2.elim nofun nofun
  have hfloat : (holdsFloat (.int a) || holdsFloat (.int b)) = false := rfl
  rw [Operator.apply, if_neg hstring, Operator.calculate, hfloat]
  split <;> exact (broadcast_ints site _ a b).trans (wholeScalars_ints site _ _ a b)

theorem negate_int (site : Site) (a : Int) :
    negate site (.int a) = orOverflow site (negateInt a) := by
  unfold negate
  cases negateInt a <;> rfl

theorem factorial_int (site : Site) (a : Int) :
    factorial site (.int a) =
      if a < 0 then Attempt.fail site .underflow else exactly site a.toNat.factorial := by
  unfold factorial factorialInt
  rw [factorialNat_eq, ← orOverflow_checked]
  cases checked a.toNat.factorial <;> rfl

/--
What each operation comes to. Nothing overflows but results out of range, divisions by zero,
exponents beyond thirty-two bits and negative powers of zero.
-/
theorem integer_operations_exact (site : Site) (a b : Int) (ha : inRange a = true) :
    Operator.add.apply site (.int a) (.int b) = exactly site (a + b) ∧
    Operator.subtract.apply site (.int a) (.int b) = exactly site (a - b) ∧
    Operator.multiply.apply site (.int a) (.int b) = exactly site (a * b) ∧
    Operator.divide.apply site (.int a) (.int b) =
      (if b = 0 ∨ a = intMin ∧ b = -1 then Attempt.fail site .overflow
        else .ok (.int (wholePart (a / b)))) ∧
    (if b = 0 then Operator.remainder.apply site (.int a) (.int b) = Attempt.fail site .overflow
      else ∃ r, Operator.remainder.apply site (.int a) (.int b) = .ok (.int r) ∧
        0 ≤ r ∧ r < |b| ∧ a ≡ r [ZMOD |b|]) ∧
    Operator.power.apply site (.int a) (.int b) =
      (if 0 ≤ b ∧ b ≤ 2 ^ 32 - 1 ∧ inRange (a ^ b.natAbs) = true then .ok (.int (a ^ b.natAbs))
        else if -(2 ^ 32 - 1) ≤ b ∧ b < 0 ∧ a ≠ 0 then
          .ok (.int (wholePart (1 / (a : ℚ) ^ b.natAbs)))
        else Attempt.fail site .overflow) ∧
    negate site (.int a) =
      (if a = intMin then Attempt.fail site .overflow else .ok (.int (-a))) ∧
    factorial site (.int a) =
      if a < 0 then Attempt.fail site .underflow else exactly site a.toNat.factorial := by
  simp only [Operator.apply_ints]
  refine ⟨orOverflow_checked site _, orOverflow_checked site _, orOverflow_checked site _,
    ?divide, ?remainder, ?power, ?negate, factorial_int site a⟩
  case divide =>
    change orOverflow site (divideInts a b) = _
    rw [divideInts_eq ha]
    split <;> rfl
  case remainder =>
    change if b = 0 then orOverflow site (remainderInts a b) = _
      else ∃ r, orOverflow site (remainderInts a b) = _ ∧ _
    split
    case isTrue hzero =>
      rw [remainderInts, if_pos hzero]
      rfl
    case isFalse hne =>
      obtain ⟨r, hr, hbounds⟩ := remainderInts_eq_some a hne
      exact ⟨r, congrArg (orOverflow site) hr, hbounds⟩
  case power =>
    have hlargest : (largestExponent : Int) = 2 ^ 32 - 1 := rfl
    change orOverflow site (powerInts a b) = _
    rw [powerInts_eq, hlargest]
    split
    · rfl
    · split <;> rfl
  case negate =>
    rw [negate_int, negateInt_eq ha]
    split <;> rfl

/-- The lowest integer has no negative, and one of its powers goes as far down as integers go. -/
theorem integer_operations_exact_lowest :
    inRange intMin = true ∧ inRange (-2) = true ∧
    Operator.divide.apply ⟨"q", 0⟩ (.int intMin) (.int (-1)) = Attempt.fail ⟨"q", 0⟩ .overflow ∧
    negate ⟨"q", 0⟩ (.int intMin) = Attempt.fail ⟨"q", 0⟩ .overflow ∧
    Operator.power.apply ⟨"q", 0⟩ (.int (-2)) (.int 63) = .ok (.int intMin) := by
  obtain ⟨-, -, -, hdivide, -, -, hnegate, -⟩ :=
    integer_operations_exact ⟨"q", 0⟩ intMin (-1) (by decide)
  obtain ⟨-, -, -, -, -, hpower, -⟩ :=
    integer_operations_exact ⟨"q", 0⟩ (-2) 63 (by decide)
  refine ⟨by decide, by decide, ?_, ?_, ?_⟩
  · rw [hdivide, if_pos (.inr ⟨rfl, rfl⟩)]
  · rw [hnegate, if_pos rfl]
  · rw [hpower, if_pos (by decide)]
    rfl

end Calculator
