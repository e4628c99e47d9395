import Mathlib
import Calculator.Proofs.Number.Rational

/-!
# Floats that are equal

A finite float has one form only, so two of them are equal when they are the same rational number.
An integer that is a float is its own nearest one.
-/

namespace Calculator.Number

open Float.Model (Format UnpackedFloat)
open Float.Model.UnpackedFloat

/-! ## The form of a finite number -/

/-- Fifty-three bits, or fewer at the lowest exponent. -/
structure Normal (mantissa : Nat) (exponent : Int) : Prop where
  high : mantissa < 2 ^ 53
  low : -1074 ≤ exponent
  full : 2 ^ 52 ≤ mantissa ∨ exponent = -1074

theorem normal_unpack (bits : BitVec 64) {sign : Sign} {mantissa : Nat} {exponent : Int}
    {hpos : 0 < mantissa}
    (h : unpack Format.binary64 bits = .finite sign mantissa exponent hpos) :
    Normal mantissa exponent := by
  have hfraction := (@unpackMantissa Format.binary64 bits).isLt
  have hbias : ((Format.binary64.exponentBias : Int) +
      Format.binary64.mantissaBitsWithoutImplicit) = 1075 := rfl
  have hsize : 2 ^ Format.binary64.mantissaBitsWithoutImplicit = 2 ^ 52 := rfl
  unfold unpack at h
  dsimp only at h
  rw [hbias] at h
  split at h
  · split at h <;> cases h
  split at h
  case isTrue hsmall =>
    split at h <;> cases h
    rw [hsmall]
    exact ⟨by omega, by decide, .inr (by decide)⟩
  case isFalse hlarge =>
    obtain ⟨-, hmantissa, hexponent⟩ := UnpackedFloat.finite.inj h
    rw [toNat_leading, leadingBit] at hmantissa
    have hfield : (@unpackExponent Format.binary64 bits).toNat ≠ 0 :=
      fun hzero => hlarge (BitVec.toNat_inj.mp hzero)
    exact ⟨by omega, by omega, .inl (by omega)⟩

theorem normal_le {m n : Nat} {d e : Int} (hm : Normal m d) (hn : Normal n e)
    (h : (m * 2 ^ d : ℚ) = n * 2 ^ e) : d ≤ e := by
  by_contra hlt
  obtain ⟨k, rfl⟩ : ∃ k : Nat, d = e + (k + 1 : Nat) := ⟨(d - e).toNat - 1, by omega⟩
  have htwo : (2 : ℚ) ^ e ≠ 0 := zpow_ne_zero e two_ne_zero
  have hscaled : m * 2 ^ (k + 1) = n := by
    rw [zpow_add₀ two_ne_zero, zpow_natCast, mul_left_comm, mul_comm (2 ^ e)] at h
    exact_mod_cast mul_right_cancel₀ htwo h
  -- The exponent is not the lowest one, so all the bits of `m` are there, and `n` has one more.
  have hfull : 2 ^ 52 ≤ m := hm.full.resolve_right (by have hlow := hn.low; omega)
  have hhigh := hn.high
  have hone : 2 ^ 1 ≤ 2 ^ (k + 1) := Nat.pow_le_pow_right (by decide) (by omega)
  have hproduct := Nat.mul_le_mul hfull hone
  omega

/-- A number has one form. -/
theorem normal_unique {m n : Nat} {d e : Int} (hm : Normal m d) (hn : Normal n e)
    (h : (m * 2 ^ d : ℚ) = n * 2 ^ e) : m = n ∧ d = e := by
  obtain rfl : d = e := Int.le_antisymm (normal_le hm hn h) (normal_le hn hm h.symm)
  have htwo : (2 : ℚ) ^ d ≠ 0 := zpow_ne_zero d two_ne_zero
  exact ⟨by exact_mod_cast mul_right_cancel₀ htwo h, rfl⟩

/-! ## Exact numbers as rational numbers -/

namespace Exact

def rational? : Exact → Option ℚ
  | .finite negative mantissa exponent => some (signed negative mantissa * 2 ^ exponent)
  | _ => none

theorem rational?_ofInt (n : Int) : (ofInt n).rational? = some (n : ℚ) := by
  have hsigned : signed (n < 0) n.natAbs = n := by
    unfold signed
    split
    case isTrue hneg =>
      have hnonpos : n < 0 := of_decide_eq_true hneg
      omega
    case isFalse hpos =>
      have hnonneg : ¬n < 0 := mt decide_eq_true hpos
      omega
  rw [ofInt, rational?, hsigned, zpow_zero, mul_one]

theorem same_finite {s t : Bool} {m n : Nat} {d e : Int} :
    (finite s m d).same (finite t n e) = true ↔
      (signed s m * 2 ^ d : ℚ) = signed t n * 2 ^ e := by
  have hscale {a low : Int} (h : low ≤ a) : (2 : ℚ) ^ a = (2 ^ (a - low).toNat : Nat) * 2 ^ low := by
    rw [Nat.cast_pow, ← zpow_natCast, Int.toNat_of_nonneg (by omega), Nat.cast_ofNat,
      ← zpow_add₀ two_ne_zero, Int.sub_add_cancel]
  have htwo : (2 : ℚ) ^ min d e ≠ 0 := zpow_ne_zero _ two_ne_zero
  rw [same, align, hscale (Int.min_le_left d e), hscale (Int.min_le_right d e), ← mul_assoc,
    ← mul_assoc, mul_left_inj' htwo, beq_iff_eq]
  norm_cast

theorem same_comm (a b : Exact) : a.same b = b.same a := by
  cases a with
  | nan => cases b <;> rfl
  | infinite s =>
    cases b with
    | infinite t => exact Bool.beq_comm
    | _ => rfl
  | finite =>
    cases b with
    | finite => rw [Bool.eq_iff_iff, same_finite, same_finite, eq_comm]
    | _ => rfl

theorem same_of_rational? {a b : Exact} {q : ℚ} (ha : a.rational? = some q)
    (hb : b.rational? = some q) : a.same b = true := by
  cases a with
  | nan | infinite => cases ha
  | finite s m d =>
    cases b with
    | nan | infinite => cases hb
    | finite t n e => exact same_finite.mpr (Option.some.inj (ha.trans hb.symm))

theorem rational?_of_same {a b : Exact} {q : ℚ} (ha : a.rational? = some q)
    (h : a.same b = true) : b.rational? = some q := by
  cases a with
  | nan | infinite => cases ha
  | finite s m d =>
    cases b with
    | nan | infinite => cases h
    | finite t n e => exact (congrArg some (same_finite.mp h).symm).trans ha

end Exact

theorem rational?_exact (x : Float) : (exact x).rational? = rational? x := by
  rw [exact_eq, rational?]
  cases x.toModel.unpack with
  | notANumber | infinity => rfl
  | zero sign => cases sign <;> simp [Exact.ofUnpacked_zero, Exact.rational?, signed]
  | finite sign mantissa exponent =>
    cases sign <;> simp [Exact.ofUnpacked_finite, Exact.rational?, signed, isMinus]

/-! ## Equal floats -/

section

variable {a b : Bool} {s t : Sign} {m n : Nat} {d e : Int}

theorem signed_zero (negative : Bool) : signed negative 0 = 0 := by
  cases negative <;> rfl

theorem zero_same_iff : (Exact.finite a 0 d).same (.finite b n e) = true ↔ n = 0 := by
  have htwo : (2 : ℚ) ^ e ≠ 0 := zpow_ne_zero e two_ne_zero
  rw [Exact.same_finite, signed_zero, Int.cast_zero, zero_mul, eq_comm, mul_eq_zero,
    or_iff_left htwo, Int.cast_eq_zero]
  cases b <;> simp [signed]

/-- Numbers that are not zero have a sign, which is part of the form. -/
theorem same_finite_iff (hm : 0 < m) (hn : 0 < n) (hmd : Normal m d) (hne : Normal n e) :
    (Exact.finite (isMinus s) m d).same (.finite (isMinus t) n e) = true ↔
      s = t ∧ m = n ∧ d = e := by
  rw [Exact.same_finite]
  constructor
  case mpr =>
    rintro ⟨rfl, rfl, rfl⟩
    rfl
  case mp =>
    intro h
    have hleft : (0 : ℚ) < m * 2 ^ d := mul_pos (Nat.cast_pos.mpr hm) (zpow_pos two_pos d)
    have hright : (0 : ℚ) < n * 2 ^ e := mul_pos (Nat.cast_pos.mpr hn) (zpow_pos two_pos e)
    cases s <;> cases t <;> simp only [isMinus, signed] at h <;> push_cast at h
    case negative.positive | positive.negative =>
      simp at h
      linarith
    case negative.negative | positive.positive =>
      exact ⟨rfl, normal_unique hmd hne (by simpa using h)⟩

theorem compare_finite_iff {hm : 0 < m} {hn : 0 < n} :
    (UnpackedFloat.finite s m d hm).compare (.finite t n e hn) = some .eq ↔
      s = t ∧ m = n ∧ d = e := by
  cases s <;> cases t <;> simp [UnpackedFloat.compare, Ordering.then_eq_eq, and_comm]

end

/-- The form that bits are unpacked to. -/
def Canonical : UnpackedFloat → Prop
  | .finite _ mantissa exponent _ => Normal mantissa exponent
  | _ => True

theorem canonical_unpack (x : Float) : Canonical x.toModel.unpack := by
  cases h : x.toModel.unpack with
  | finite => exact normal_unpack _ h
  | _ => trivial

theorem compare_eq_iff {u v : UnpackedFloat} (hu : Canonical u) (hv : Canonical v) :
    u.compare v = some .eq ↔ (Exact.ofUnpacked u).same (.ofUnpacked v) = true := by
  cases u with
  | notANumber => simp [UnpackedFloat.compare, Exact.ofUnpacked, Exact.same]
  | infinity s =>
    cases v with
    | infinity t => cases s <;> cases t <;> decide
    | _ => cases s <;> simp [UnpackedFloat.compare, Exact.ofUnpacked, Exact.same]
  | zero s =>
    cases v with
    | notANumber => simp [UnpackedFloat.compare, Exact.ofUnpacked, Exact.same]
    | infinity t => cases t <;> simp [UnpackedFloat.compare, Exact.ofUnpacked, Exact.same]
    | zero t => simp [UnpackedFloat.compare, Exact.ofUnpacked, zero_same_iff]
    | finite t n e hn =>
      cases t <;> simp [UnpackedFloat.compare, Exact.ofUnpacked, zero_same_iff, Nat.ne_of_gt hn]
  | finite s m d hm =>
    cases v with
    | notANumber => simp [UnpackedFloat.compare, Exact.ofUnpacked, Exact.same]
    | infinity t =>
      cases s <;> cases t <;> simp [UnpackedFloat.compare, Exact.ofUnpacked, Exact.same]
    | zero t =>
      cases s <;>
        simp [UnpackedFloat.compare, Exact.ofUnpacked, Exact.same_comm (.finite _ m d),
          zero_same_iff, Nat.ne_of_gt hm]
    | finite t n e hn =>
      rw [compare_finite_iff]
      exact (same_finite_iff hm hn hu hv).symm

/-- Equal floats are the same exact number. -/
theorem beq_iff_same {x y : Float} : (x == y) = true ↔ (exact x).same (exact y) = true := by
  change (UnpackedFloat.compare x.toModel.unpack y.toModel.unpack == some .eq) = true ↔ _
  rw [beq_iff_eq, exact_eq, exact_eq]
  exact compare_eq_iff (canonical_unpack x) (canonical_unpack y)

theorem beq_zero_iff {x : Float} : (x == 0.0) = true ↔ rational? x = some 0 := by
  have hzero : (exact 0.0).rational? = some 0 := by
    have hexact : exact 0.0 = .finite false 0 (-1074) := by decide
    rw [hexact, Exact.rational?, signed_zero, Int.cast_zero, zero_mul]
  rw [beq_iff_same, ← rational?_exact, Exact.same_comm]
  exact ⟨Exact.rational?_of_same hzero, Exact.same_of_rational? hzero⟩

/-! ## Integers that are floats -/

theorem nearestNat_normal {m : Nat} {e : Int} (h : Normal m e) {k : Nat}
    (hk : (m * 2 ^ e : ℚ) = k) : nearestNat k = k := by
  by_cases hwhole : 0 ≤ e
  case pos =>
    obtain ⟨c, rfl⟩ := Int.eq_ofNat_of_zero_le hwhole
    have hfull : 2 ^ 52 ≤ m := h.full.resolve_right (by omega)
    obtain rfl : m * 2 ^ c = k := by
      rw [zpow_natCast] at hk
      exact_mod_cast hk
    rw [nearestNat_mul_pow hfull, nearestNat_of_lt h.high]
  case neg =>
    have hle : (2 : ℚ) ^ e ≤ 1 := zpow_le_one_of_nonpos₀ one_le_two (by omega)
    have hkm : (k : ℚ) ≤ m := by
      rw [← hk]
      exact mul_le_of_le_one_right (Nat.cast_nonneg m) hle
    exact nearestNat_of_lt (lt_of_le_of_lt (by exact_mod_cast hkm) h.high)

theorem nearest_of_nat {n : Int} (h : nearestNat n.natAbs = n.natAbs) : nearest n = n := by
  cases n with
  | ofNat m => exact congrArg Int.ofNat h
  | negSucc m =>
    change nearestNat (m + 1) = m + 1 at h
    rw [nearest, h]
    rfl

theorem nearest_of_rational? {x : Float} {n : Int} (h : rational? x = some (n : ℚ)) :
    nearest n = n := by
  apply nearest_of_nat
  unfold rational? at h
  split at h
  case h_1 =>
    obtain rfl : n = 0 := by exact_mod_cast (Option.some.inj h).symm
    rfl
  case h_2 m e hm hunpack | h_3 m e hm hunpack =>
    have hnormal : Normal m e := normal_unpack _ hunpack
    have hpos : (0 : ℚ) < m * 2 ^ e := mul_pos (Nat.cast_pos.mpr hm) (zpow_pos two_pos e)
    apply nearestNat_normal hnormal
    simp [← Option.some.inj h, Nat.cast_natAbs, abs_of_pos hpos]
  case h_4 => cases h

theorem Denotes.rational? {sign : Sign} {x : Float} {v : Nat}
    (h : Denotes sign x.toModel.unpack v) : rational? x = some (sign.apply v : ℚ) := by
  unfold Number.rational?
  generalize x.toModel.unpack = u at h
  cases h with
  | zero => cases sign <;> rfl
  | @finite m place v hpos hlow hhigh hvalue =>
    have hsize : (m * 2 ^ ((place : Int) - 104) : ℚ) = v := by
      rw [zpow_sub₀ two_ne_zero, ← mul_div_assoc, div_eq_iff (by positivity)]
      exact_mod_cast hvalue
    cases sign
    case negative => exact congrArg some ((congrArg Neg.neg hsize).trans (Int.cast_neg _).symm)
    case positive => exact congrArg some hsize

theorem rational?_ofInt {n : Int} (h : inRange n = true) :
    rational? (Float.ofInt n) = some (nearest n : ℚ) := by
  obtain ⟨sign, size, hdenotes, hsize⟩ := denotes_ofInt h
  rw [hdenotes.rational?, hsize]

/-- An integer that a float is exactly is turned into that float. -/
theorem ofInt_beq_of_rational? {n : Int} {x : Float} (hn : inRange n = true)
    (h : rational? x = some (n : ℚ)) : (Float.ofInt n == x) = true := by
  have hint := rational?_ofInt hn
  rw [nearest_of_rational? h] at hint
  rw [beq_iff_same]
  exact Exact.same_of_rational? ((rational?_exact _).trans hint) ((rational?_exact x).trans h)

end Calculator.Number
