import Mathlib.Algebra.Order.Group.Nat
import Mathlib.Algebra.Order.Ring.Int

/-!
# Rounding to fifty-three bits

A float has room for the first fifty-three bits of a whole number. The bits behind them are rounded
away, and a half goes to the even side. That never turns an order around, but it makes some numbers
equal.
-/

namespace Calculator.Number

/-! ## Whole units -/

/-- How many units there are in a number, rounded. A half goes to the even side. -/
def unitsIn (n unit : Nat) : Nat :=
  let rest := n % unit
  if 2 * rest < unit then n / unit
  else if 2 * rest = unit then n / unit + n / unit % 2
  else n / unit + 1

theorem le_unitsIn (n unit : Nat) : n / unit ≤ unitsIn n unit := by
  unfold unitsIn
  grind

theorem unitsIn_le (n unit : Nat) : unitsIn n unit ≤ n / unit + 1 := by
  unfold unitsIn
  grind

theorem unitsIn_one (n : Nat) : unitsIn n 1 = n := by
  simp [unitsIn, Nat.mod_one]

theorem unitsIn_mul {n unit c : Nat} (hc : 0 < c) : unitsIn (n * c) (unit * c) = unitsIn n unit := by
  have hlt : 2 * (n % unit * c) < unit * c ↔ 2 * (n % unit) < unit := by
    rw [← Nat.mul_assoc, Nat.mul_lt_mul_right hc]
  have heq : 2 * (n % unit * c) = unit * c ↔ 2 * (n % unit) = unit := by
    rw [← Nat.mul_assoc, Nat.mul_left_inj (Nat.ne_of_gt hc)]
  unfold unitsIn
  simp only [Nat.mul_mod_mul_right, Nat.mul_div_mul_right _ _ hc, hlt, heq]

theorem unitsIn_mono {m n : Nat} (h : m ≤ n) (unit : Nat) : unitsIn m unit ≤ unitsIn n unit := by
  rcases Nat.lt_or_eq_of_le (Nat.div_le_div_right (c := unit) h) with hlt | heq
  · calc unitsIn m unit
      _ ≤ m / unit + 1 := unitsIn_le m unit
      _ ≤ n / unit := hlt
      _ ≤ unitsIn n unit := le_unitsIn n unit
  · have hm := Nat.div_add_mod m unit
    have hn := Nat.div_add_mod n unit
    rw [heq] at hm
    have hrest : m % unit ≤ n % unit := by omega
    unfold unitsIn
    rw [heq]
    grind

/-! ## Fifty-three bits -/

/-- The first fifty-three bits count units. -/
def unit (n : Nat) : Nat := 2 ^ (n.log2 - 52)

theorem unit_pos (n : Nat) : 0 < unit n := Nat.two_pow_pos _

theorem unit_eq_one {n : Nat} (h : n < 2 ^ 53) : unit n = 1 := by
  have hlog : n.log2 ≤ 52 := by
    by_cases hzero : n = 0
    · rw [hzero]
      decide
    · exact Nat.le_of_lt_succ ((Nat.log2_lt hzero).mpr h)
  rw [unit, Nat.sub_eq_zero_of_le hlog, Nat.pow_zero]

theorem pow_log2 {n : Nat} (h : 2 ^ 52 ≤ n) : 2 ^ n.log2 = 2 ^ 52 * unit n := by
  have hlog : 52 ≤ n.log2 := (Nat.le_log2 (by omega)).mpr h
  rw [unit, ← Nat.pow_add, Nat.add_sub_cancel' hlog]

theorem pow_le_div_unit {n : Nat} (h : 2 ^ 52 ≤ n) : 2 ^ 52 ≤ n / unit n := by
  rw [Nat.le_div_iff_mul_le (unit_pos n), ← pow_log2 h]
  exact Nat.log2_self_le (by omega)

theorem div_unit_lt {n : Nat} (h : 2 ^ 52 ≤ n) : n / unit n < 2 ^ 53 := by
  have hlt : n < 2 ^ (n.log2 + 1) := Nat.lt_log2_self
  rw [Nat.pow_succ, pow_log2 h] at hlt
  rw [Nat.div_lt_iff_lt_mul (unit_pos n)]
  omega

/-- Fifty-three bits and a carry leave nothing behind the unit. -/
theorem div_mul_unit {n : Nat} (h : n ≤ 2 ^ 53) : n / unit n * unit n = n := by
  rcases Nat.lt_or_eq_of_le h with hlt | rfl
  · rw [unit_eq_one hlt, Nat.div_one, Nat.mul_one]
  · rfl

/-- The natural number that is the float nearest to `n`. -/
def nearestNat (n : Nat) : Nat := unitsIn n (unit n) * unit n

theorem nearestNat_of_lt {n : Nat} (h : n < 2 ^ 53) : nearestNat n = n := by
  rw [nearestNat, unit_eq_one h, unitsIn_one, Nat.mul_one]

theorem nearestNat_mul_pow {n : Nat} (h : 2 ^ 52 ≤ n) (c : Nat) :
    nearestNat (n * 2 ^ c) = nearestNat n * 2 ^ c := by
  have hpos : n ≠ 0 := by omega
  have hlog : (n * 2 ^ c).log2 = n.log2 + c := by
    have hpow : n * 2 ^ c ≠ 0 := Nat.mul_ne_zero hpos (Nat.ne_of_gt (Nat.two_pow_pos c))
    rw [Nat.log2_eq_iff hpow]
    constructor
    · rw [Nat.pow_add]
      exact Nat.mul_le_mul_right _ (Nat.log2_self_le hpos)
    · rw [Nat.add_right_comm, Nat.pow_add]
      exact Nat.mul_lt_mul_of_pos_right Nat.lt_log2_self (Nat.two_pow_pos c)
  have hunit : unit (n * 2 ^ c) = unit n * 2 ^ c := by
    have hlow : 52 ≤ n.log2 := (Nat.le_log2 hpos).mpr h
    rw [unit, unit, hlog, ← Nat.pow_add, Nat.sub_add_comm hlow]
  rw [nearestNat, hunit, unitsIn_mul (Nat.two_pow_pos c), nearestNat, Nat.mul_assoc]

theorem pow_log2_le_nearestNat {n : Nat} (h : 2 ^ 52 ≤ n) : 2 ^ n.log2 ≤ nearestNat n := by
  rw [pow_log2 h]
  exact Nat.mul_le_mul_right _ ((pow_le_div_unit h).trans (le_unitsIn n _))

theorem nearestNat_le_pow {n : Nat} (h : 2 ^ 52 ≤ n) : nearestNat n ≤ 2 ^ (n.log2 + 1) := by
  have hle : unitsIn n (unit n) ≤ 2 ^ 53 := (unitsIn_le n _).trans (div_unit_lt h)
  have hpow := pow_log2 h
  calc nearestNat n
    _ ≤ 2 ^ 53 * unit n := Nat.mul_le_mul_right _ hle
    _ = 2 ^ (n.log2 + 1) := by omega

/-- Between two powers of two the units are the same, and the powers of two are kept. -/
theorem nearestNat_mono {m n : Nat} (h : m ≤ n) : nearestNat m ≤ nearestNat n := by
  by_cases hm : m < 2 ^ 53
  · by_cases hn : n < 2 ^ 53
    · rw [nearestNat_of_lt hm, nearestNat_of_lt hn]
      exact h
    · have hlog : 53 ≤ n.log2 := (Nat.le_log2 (by omega)).mpr (by omega)
      calc nearestNat m
        _ = m := nearestNat_of_lt hm
        _ ≤ 2 ^ 53 := Nat.le_of_lt hm
        _ ≤ 2 ^ n.log2 := Nat.pow_le_pow_right (by decide) hlog
        _ ≤ nearestNat n := pow_log2_le_nearestNat (by omega)
  · have hlog : m.log2 ≤ n.log2 := (Nat.le_log2 (by omega)).mpr
      ((Nat.log2_self_le (by omega)).trans h)
    rcases Nat.lt_or_eq_of_le hlog with hlt | heq
    · calc nearestNat m
        _ ≤ 2 ^ (m.log2 + 1) := nearestNat_le_pow (by omega)
        _ ≤ 2 ^ n.log2 := Nat.pow_le_pow_right (by decide) hlt
        _ ≤ nearestNat n := pow_log2_le_nearestNat (by omega)
    · have hunit : unit m = unit n := by rw [unit, unit, heq]
      rw [nearestNat, nearestNat, hunit]
      exact Nat.mul_le_mul_right _ (unitsIn_mono h _)

theorem nearestNat_le {n : Nat} (h : n < 2 ^ 64) : nearestNat n ≤ 2 ^ 64 := by
  calc nearestNat n
    _ ≤ nearestNat (2 ^ 64) := nearestNat_mono (Nat.le_of_lt h)
    _ = 2 ^ 64 := by decide

/-! ## Integers -/

/-- The integer that is the float nearest to `n`. -/
def nearest : Int → Int
  | .ofNat n => nearestNat n
  | .negSucc n => -nearestNat (n + 1)

theorem nearest_mono {a b : Int} (h : a ≤ b) : nearest a ≤ nearest b := by
  cases a with
  | ofNat m =>
    cases b with
    | ofNat n => exact Int.ofNat_le.mpr (nearestNat_mono (Int.ofNat_le.mp h))
    | negSucc n =>
      have hneg := Int.negSucc_lt_zero n
      change (m : Int) ≤ _ at h
      omega
  | negSucc m =>
    cases b with
    | ofNat n =>
      have hm := Int.natCast_nonneg (nearestNat (m + 1))
      have hn := Int.natCast_nonneg (nearestNat n)
      change -(nearestNat (m + 1) : Int) ≤ nearestNat n
      omega
    | negSucc n =>
      have hmn : nearestNat (n + 1) ≤ nearestNat (m + 1) := nearestNat_mono (by omega)
      change -(nearestNat (m + 1) : Int) ≤ -nearestNat (n + 1)
      omega

theorem nearest_lt_iff {a b : Int} (h : nearest a = nearest b → a = b) :
    nearest a < nearest b ↔ a < b := by
  constructor
  · intro hlt
    by_contra hge
    exact absurd (nearest_mono (Int.not_lt.mp hge)) (Int.not_le.mpr hlt)
  · intro hlt
    exact lt_of_le_of_ne (nearest_mono (Int.le_of_lt hlt)) fun heq => Int.ne_of_lt hlt (h heq)

/-- Up to fifty-three bits there is nothing to round. -/
theorem nearest_eq_self {n : Int} (h : n.natAbs ≤ 2 ^ 53) : nearest n = n := by
  have hnat {m : Nat} (hm : m ≤ 2 ^ 53) : nearestNat m = m := by
    rcases Nat.lt_or_eq_of_le hm with hlt | rfl
    · exact nearestNat_of_lt hlt
    · decide
  cases n with
  | ofNat m => exact congrArg Int.ofNat (hnat h)
  | negSucc m =>
    have hsize : nearestNat (m + 1) = m + 1 := hnat h
    rw [nearest, hsize]
    rfl

end Calculator.Number
