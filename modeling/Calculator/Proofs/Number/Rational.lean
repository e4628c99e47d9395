import Mathlib.Data.Rat.Floor
import Calculator.Number.Exact
import Calculator.Proofs.Number.Nearest

/-!
# Floats as rational numbers

A finite float is a rational number, and its bits are taken apart without loss. Rounding to whole
numbers is rounding of that number. What is not finite has no whole part.
-/

namespace Calculator.Number

open Float.Model (Format UnpackedFloat)
open Float.Model.UnpackedFloat

/-! ## The parts of a float -/

section

variable (bits : BitVec 64)

theorem toNat_unpackMantissa :
    (@unpackMantissa Format.binary64 bits).toNat = bits.toNat % leadingBit := by
  change (bits.extractLsb 51 0).toNat = _
  rw [BitVec.extractLsb_toNat, Nat.shiftRight_zero]
  rfl

theorem toNat_unpackExponent :
    (@unpackExponent Format.binary64 bits).toNat = bits.toNat / leadingBit % 2048 := by
  change (bits.extractLsb 62 52).toNat = _
  rw [BitVec.extractLsb_toNat, Nat.shiftRight_eq_div_pow]
  rfl

theorem toNat_unpackSign :
    (@unpackSign Format.binary64 bits).toNat = bits.toNat / signBit := by
  change (bits.extractLsb 63 63).toNat = _
  rw [BitVec.extractLsb_toNat, Nat.shiftRight_eq_div_pow]
  exact Nat.mod_eq_of_lt (Nat.div_lt_of_lt_mul bits.isLt)

end

def isMinus : Sign → Bool
  | .negative => true
  | .positive => false

theorem isMinus_ofBitVec (b : BitVec 1) : isMinus (Sign.ofBitVec b) = decide (b.toNat = 1) := by
  revert b
  decide

namespace Exact

def ofUnpacked : UnpackedFloat → Exact
  | .notANumber => .nan
  | .infinity sign => .infinite (isMinus sign)
  | .zero sign => .finite (isMinus sign) 0 (-1074)
  | .finite sign mantissa exponent _ => .finite (isMinus sign) mantissa exponent

theorem ofUnpacked_zero (sign : Sign) :
    ofUnpacked (.zero sign) = .finite (isMinus sign) 0 (-1074) := rfl

theorem ofUnpacked_finite (sign : Sign) (mantissa : Nat) (exponent : Int) (h : 0 < mantissa) :
    ofUnpacked (.finite sign mantissa exponent h) = .finite (isMinus sign) mantissa exponent := rfl

end Exact

/-- The two ends of the exponents are for zeros and small numbers, and for what is not finite. -/
theorem exact_eq (x : Float) : exact x = .ofUnpacked x.toModel.unpack := by
  have hmantissa := toNat_unpackMantissa x.toBits.toBitVec
  have hexponent := toNat_unpackExponent x.toBits.toBitVec
  have hminus := isMinus_ofBitVec (@unpackSign Format.binary64 x.toBits.toBitVec)
  rw [toNat_unpackSign] at hminus
  have hbias : ((Format.binary64.exponentBias : Int) +
      Format.binary64.mantissaBitsWithoutImplicit) = 1075 := rfl
  change exact x = .ofUnpacked (unpack Format.binary64 x.toBits.toBitVec)
  unfold unpack
  dsimp only
  set mantissa : BitVec 52 := @unpackMantissa Format.binary64 x.toBits.toBitVec
  set field : BitVec 11 := @unpackExponent Format.binary64 x.toBits.toBitVec
  set sign := Sign.ofBitVec (@unpackSign Format.binary64 x.toBits.toBitVec)
  have hexact : exact x =
      if field.toNat = 2047 then
        if mantissa.toNat = 0 then .infinite (isMinus sign) else .nan
      else if field.toNat = 0 then .finite (isMinus sign) mantissa.toNat (-1074)
      else .finite (isMinus sign) (mantissa.toNat + leadingBit) (field.toNat - 1075) := by
    rw [hminus, hmantissa, hexponent]
    rfl
  have hones : field = -1#11 ↔ field.toNat = 2047 := BitVec.toNat_inj.symm
  have hzeros : field = 0#11 ↔ field.toNat = 0 := BitVec.toNat_inj.symm
  have hnone : mantissa = 0#52 ↔ mantissa.toNat = 0 := BitVec.toNat_inj.symm
  rw [hexact]
  by_cases hfield : field = -1#11
  · rw [if_pos hfield, if_pos (hones.mp hfield)]
    by_cases hfraction : mantissa = 0#52
    · rw [if_pos hfraction, if_pos (hnone.mp hfraction)]
      rfl
    · rw [if_neg hfraction, if_neg (mt hnone.mpr hfraction)]
      rfl
  rw [if_neg hfield, if_neg (mt hones.mpr hfield)]
  by_cases hsmall : field = 0#11
  · rw [if_pos hsmall, if_pos (hzeros.mp hsmall)]
    by_cases hfraction : mantissa = 0#52
    · rw [dif_pos hfraction, hnone.mp hfraction, Exact.ofUnpacked_zero]
    · rw [dif_neg hfraction, Exact.ofUnpacked_finite, hbias, hzeros.mp hsmall]
      rfl
  · rw [if_neg hsmall, if_neg (mt hzeros.mpr hsmall), Exact.ofUnpacked_finite, hbias,
      toNat_leading]

/-! ## Whole parts -/

/-- The number that a float is, if it is finite. -/
def rational? (x : Float) : Option ℚ :=
  match x.toModel.unpack with
  | .zero _ => some 0
  | .finite .positive mantissa exponent _ => some (mantissa * 2 ^ exponent)
  | .finite .negative mantissa exponent _ => some (-(mantissa * 2 ^ exponent))
  | _ => none

theorem isSome_rational? (x : Float) : (rational? x).isSome = x.isFinite := by
  change _ = x.toModel.unpack.isFinite
  unfold rational?
  cases x.toModel.unpack with
  | finite sign => cases sign <;> rfl
  | _ => rfl

/-- What stops a program that asks for the whole part of what is not finite. -/
def wholeFault (x : Float) : Fault := if x.isNaN then .wholeOfNaN else .wholeOfInfinite

variable {divide : Int → Int → Int} {round : ℚ → ℤ}

/-- A division that rounds rounds the finite number that is taken apart. -/
theorem whole_finite (hdivide : ∀ (a : Int) (n : Nat), divide a n = round (a / n))
    (hround : ∀ a : Int, round a = a) (negative : Bool) (m : Nat) (e : Int) :
    (Exact.finite negative m e).whole divide = .ok (round (signed negative m * 2 ^ e)) := by
  rw [Exact.whole]
  split
  case isTrue h =>
    obtain ⟨k, rfl⟩ := Int.eq_ofNat_of_zero_le h
    refine congrArg Except.ok ?_
    rw [Int.toNat_natCast, zpow_natCast]
    exact_mod_cast (hround _).symm
  case isFalse h =>
    obtain ⟨k, rfl⟩ : ∃ k : Nat, e = -k := ⟨(-e).toNat, by omega⟩
    refine congrArg Except.ok ?_
    rw [neg_neg, Int.toNat_natCast, hdivide, zpow_neg, zpow_natCast,
      ← div_eq_mul_inv]
    norm_cast

theorem whole_exact (hdivide : ∀ (a : Int) (n : Nat), divide a n = round (a / n))
    (hround : ∀ a : Int, round a = a) (x : Float) :
    (exact x).whole divide =
      match rational? x with
      | some q => .ok (round q)
      | none => .error (wholeFault x) := by
  have hnan : x.isNaN = x.toModel.unpack.isNaN := rfl
  rw [exact_eq, wholeFault, hnan, rational?]
  cases x.toModel.unpack with
  | notANumber | infinity => rfl
  | zero sign =>
    rw [Exact.ofUnpacked_zero, whole_finite hdivide hround]
    cases sign <;> simp [signed]
  | finite sign m e =>
    rw [Exact.ofUnpacked_finite, whole_finite hdivide hround]
    cases sign with
    | positive => rfl
    | negative =>
      have hsigned : ((signed true m : Int) : ℚ) = -m := by simp [signed]
      rw [isMinus, hsigned, neg_mul]

theorem floor_div (a : Int) (n : Nat) : a.fdiv n = ⌊(a / n : ℚ)⌋ := by
  rw [Rat.floor_intCast_div_natCast, Int.fdiv_eq_ediv_of_nonneg a (Int.natCast_nonneg n)]

theorem ceiling_div (a : Int) (n : Nat) : -(-a).fdiv n = ⌈(a / n : ℚ)⌉ := by
  rw [floor_div, Int.cast_neg, neg_div, Int.floor_neg, neg_neg]

theorem floor_eq (x : Float) : floor x =
    match rational? x with
    | some q => .ok ⌊q⌋
    | none => .error (wholeFault x) :=
  whole_exact floor_div Int.floor_intCast x

theorem ceiling_eq (x : Float) : ceiling x =
    match rational? x with
    | some q => .ok ⌈q⌉
    | none => .error (wholeFault x) :=
  whole_exact ceiling_div Int.ceil_intCast x

end Calculator.Number
