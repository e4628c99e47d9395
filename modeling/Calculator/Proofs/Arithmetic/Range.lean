import Calculator.Arithmetic.Operator

/-!
# Integers of sixty-four bits

An operation on integers that are in range comes to an integer in range, or to none. For most of
them the result is checked. The others cannot leave the range.
-/

namespace Calculator

theorem inRange_iff {n : Int} :
    inRange n = true ↔ -0x8000000000000000 ≤ n ∧ n ≤ 0x7FFFFFFFFFFFFFFF := by
  rw [inRange, Bool.and_eq_true, decide_eq_true_iff, decide_eq_true_iff]
  rfl

/-- As a natural number, or the successor of one with a minus sign. -/
theorem inRange_ofNat {m : Nat} : inRange (.ofNat m) = true ↔ m < 0x8000000000000000 := by
  rw [inRange_iff, Int.ofNat_eq_natCast]
  omega

theorem inRange_negSucc {m : Nat} : inRange (.negSucc m) = true ↔ m < 0x8000000000000000 := by
  rw [inRange_iff, Int.negSucc_eq]
  omega

theorem inRange_wrap (n : Int) : inRange (wrap n) = true := by
  have hlow : -((wordSize : Int) / 2) ≤ wrap n := Int.le_bmod (by decide)
  have hhigh : wrap n < ((wordSize : Int) + 1) / 2 := Int.bmod_lt (by decide)
  rw [inRange_iff]
  simp only [wordSize] at hlow hhigh
  omega

namespace Arithmetic

theorem inRange_of_checked {n m : Int} (h : checked n = some m) : inRange m = true := by
  unfold checked at h
  split at h
  · cases h
    assumption
  · cases h

theorem inRange_remainder {a b n : Int} (hb : inRange b = true) (h : remainderInts a b = some n) :
    inRange n = true := by
  unfold remainderInts at h
  split at h
  case isTrue => cases h
  case isFalse hne =>
    cases h
    have hlow := Int.emod_nonneg a hne
    have hhigh := Int.emod_lt a hne
    rw [inRange_iff] at hb ⊢
    omega

theorem inRange_power {a b n : Int} (h : powerInts a b = some n) : inRange n = true := by
  unfold powerInts at h
  split at h
  · cases h
  · split at h
    · split at h
      · cases h
      · split at h
        case isTrue hone =>
          cases h
          -- A power of one or minus one is one or minus one.
          have hpower : (a.pow b.natAbs).natAbs = 1 := by
            change (a ^ b.natAbs).natAbs = 1
            rw [Int.natAbs_pow, hone, Nat.one_pow]
          rw [inRange_iff]
          omega
        case isFalse =>
          cases h
          rfl
    · split at h
      · cases h
      · exact inRange_of_checked h

theorem inRange_shiftRight {a : Int} (ha : inRange a = true) (b : Int) :
    inRange (shiftRightInts a b) = true := by
  have hpos : (0 : Int) < (Nat.pow 2 (places b) : Nat) :=
    Int.natCast_pos.mpr (Nat.two_pow_pos (places b))
  unfold shiftRightInts
  generalize ((Nat.pow 2 (places b) : Nat) : Int) = unit at hpos
  rw [inRange_iff] at ha ⊢
  constructor
  · apply (Int.le_ediv_iff_mul_le hpos).mpr
    omega
  · apply Int.lt_add_one_iff.mp
    apply Int.ediv_lt_of_lt_mul hpos
    omega

/-! ## Bits -/

theorem without_lt {m n : Nat} (h : m < 0x8000000000000000) : without m n < 0x8000000000000000 :=
  Nat.xor_lt_two_pow (n := 63) h (Nat.lt_of_le_of_lt Nat.and_le_left h)

theorem inRange_bitAnd {a b : Int} (ha : inRange a = true) (hb : inRange b = true) :
    inRange (bitAndInts a b) = true := by
  rcases a with m | m <;> rcases b with n | n <;>
    simp only [bitAndInts, inRange_ofNat, inRange_negSucc] at ha hb ⊢
  · exact Nat.lt_of_le_of_lt Nat.and_le_left ha
  · exact without_lt ha
  · exact without_lt hb
  · exact Nat.or_lt_two_pow (n := 63) ha hb

theorem inRange_bitOr {a b : Int} (ha : inRange a = true) (hb : inRange b = true) :
    inRange (bitOrInts a b) = true := by
  rcases a with m | m <;> rcases b with n | n <;>
    simp only [bitOrInts, inRange_ofNat, inRange_negSucc] at ha hb ⊢
  · exact Nat.or_lt_two_pow (n := 63) ha hb
  · exact without_lt hb
  · exact without_lt ha
  · exact Nat.lt_of_le_of_lt Nat.and_le_left ha

theorem inRange_bitXor {a b : Int} (ha : inRange a = true) (hb : inRange b = true) :
    inRange (bitXorInts a b) = true := by
  rcases a with m | m <;> rcases b with n | n <;>
    simp only [bitXorInts, inRange_ofNat, inRange_negSucc] at ha hb ⊢ <;>
    exact Nat.xor_lt_two_pow (n := 63) ha hb

theorem inRange_complement {n : Int} (h : inRange n = true) : inRange (complementInt n) = true := by
  rw [inRange_iff] at h
  unfold complementInt
  split
  · rw [inRange_iff]
    omega
  · have hbits : n.toNat.log2 + 1 ≤ 63 := by
      have hlt : n.toNat < 0x8000000000000000 := by omega
      exact (Nat.log2_lt (by omega)).mpr hlt
    have hmask : (Nat.pow 2 (n.toNat.log2 + 1) : Nat) ≤ 0x8000000000000000 :=
      Nat.pow_le_pow_right (by decide) hbits
    have hpos : 0 < Nat.pow 2 (n.toNat.log2 + 1) := Nat.two_pow_pos _
    generalize Nat.pow 2 (n.toNat.log2 + 1) = mask at hmask hpos
    have hlow := Int.emod_nonneg (-n - 1) (b := mask) (by omega)
    have hhigh := Int.emod_lt_of_pos (-n - 1) (b := mask) (by omega)
    rw [inRange_iff]
    omega

/-! ## One operand -/

theorem inRange_multiplyUp {product m : Int} {next rounds : Nat} (hpositive : 0 ≤ product)
    (hproduct : inRange product = true) (h : multiplyUp product next rounds = some m) :
    inRange m = true := by
  induction rounds generalizing product next with
  | zero =>
    cases h
    exact hproduct
  | succ rounds ih =>
    rw [multiplyUp] at h
    split at h
    case isTrue => cases h
    case isFalse hle =>
      have hnext : 0 ≤ product * next := Int.mul_nonneg hpositive (Int.natCast_nonneg next)
      refine ih hnext (inRange_iff.mpr ⟨?_, ?_⟩) h
      · omega
      · exact Int.not_lt.mp hle

theorem inRange_factorial {n : Nat} {m : Int} (h : factorialNat n = some m) : inRange m = true :=
  inRange_multiplyUp (by decide) (by decide) h

end Arithmetic

theorem Operator.onInts_inRange {operator : Operator} {a b n : Int} (ha : inRange a = true)
    (hb : inRange b = true) (h : operator.onInts a b = some n) : inRange n = true := by
  cases operator with
  | add | subtract | multiply => exact Arithmetic.inRange_of_checked h
  | divide =>
    change Arithmetic.divideInts a b = some n at h
    unfold Arithmetic.divideInts at h
    split at h
    · cases h
    · exact Arithmetic.inRange_of_checked h
  | remainder => exact Arithmetic.inRange_remainder hb h
  | power => exact Arithmetic.inRange_power h
  | shiftLeft =>
    cases h
    exact inRange_wrap _
  | shiftRight =>
    cases h
    exact Arithmetic.inRange_shiftRight ha b
  | bitAnd =>
    cases h
    exact Arithmetic.inRange_bitAnd ha hb
  | bitOr =>
    cases h
    exact Arithmetic.inRange_bitOr ha hb
  | bitXor =>
    cases h
    exact Arithmetic.inRange_bitXor ha hb

end Calculator
