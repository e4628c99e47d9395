import Calculator.Proofs.Number.Equality

/-!
# Zero as a float

The float of an integer is zero for zero only, however large the integer is. Equal floats are zero
together.
-/

namespace Calculator.Number

open Float.Model (Format UnpackedFloat)
open Float.Model.UnpackedFloat

/-! ## Floats of integers -/

/-- Infinite, or with all of its fifty-three bits. -/
inductive Full : UnpackedFloat → Prop where
  | infinite (sign : Sign) : Full (.infinity sign)
  | finite {sign : Sign} {mantissa place : Nat} (hpos : 0 < mantissa) (hlow : 2 ^ 52 ≤ mantissa)
      (hhigh : mantissa < 2 ^ 53) : Full (.finite sign mantissa (place - 104) hpos)

variable {u : UnpackedFloat}

theorem Denotes.full {sign : Sign} {v : Nat} (h : Denotes sign u v) (hv : 0 < v) : Full u := by
  cases h with
  | zero => exact absurd hv (Nat.lt_irrefl 0)
  | finite hpos hlow hhigh => exact .finite hpos hlow hhigh

theorem Full.neg (h : Full u) : Full u.neg := by
  cases h with
  | infinite sign => exact .infinite _
  | finite hpos hlow hhigh => exact .finite hpos hlow hhigh

theorem unpack_packedInfinity (sign : Sign) :
    unpack Format.binary64 (packedInfinity Format.binary64 sign) = .infinity sign := by
  cases sign <;> rfl

/-- What does not fit becomes infinite. -/
theorem Full.unpack_pack (h : Full u) :
    Full (unpack Format.binary64 (pack Format.binary64 u)) := by
  cases h with
  | infinite sign =>
    have hpack : pack Format.binary64 (.infinity sign) = packedInfinity Format.binary64 sign := rfl
    rw [hpack, unpack_packedInfinity]
    exact .infinite sign
  | @finite sign mantissa place hpos hlow hhigh =>
    by_cases hplace : place < 1076
    case pos =>
      rw [unpack_pack_finite sign hpos hlow hhigh hplace]
      exact .finite hpos hlow hhigh
    case neg =>
      have hpack : pack Format.binary64 (.finite sign mantissa (place - 104) hpos) =
          packedInfinity Format.binary64 sign := by
        refine if_pos ?_
        change 2048 ≤ ((place : Int) - 104 + 1023 + 52).toNat + 1
        omega
      rw [hpack, unpack_packedInfinity]
      exact .infinite sign

theorem full_ofNat {n : Nat} (h : 0 < n) : Full (Float.ofNat n).toModel.unpack := by
  by_cases hsmall : n < 2 ^ 53
  case pos =>
    refine (denotes_natFloat (by omega)).full ?_
    rwa [nearestNat_of_lt hsmall]
  case neg =>
    have hpos : 0 < nearestNat n :=
      Nat.lt_of_lt_of_le (Nat.two_pow_pos _) (pow_log2_le_nearestNat (by omega))
    have hlarge : Float.ofNat n = ⟨.ofScientific n 0⟩ := dif_neg (by omega)
    rw [hlarge]
    exact ((denotes_ofScientific (by omega)).full hpos).unpack_pack

theorem full_ofInt {n : Int} (h : n ≠ 0) : Full (Float.ofInt n).toModel.unpack := by
  cases n with
  | ofNat m => exact full_ofNat (Nat.pos_of_ne_zero fun hzero => h (congrArg Int.ofNat hzero))
  | negSucc m => exact (full_ofNat (Nat.succ_pos m)).neg.unpack_pack

theorem Full.beq_zero {x : Float} (h : Full x.toModel.unpack) : (x == 0.0) = false := by
  have hzero : (0.0 : Float).toModel.unpack = .zero .positive := rfl
  change (x.toModel.unpack.compare (0.0 : Float).toModel.unpack == some .eq) = false
  rw [hzero]
  generalize x.toModel.unpack = u at h
  cases h with
  | infinite sign => cases sign <;> rfl
  | @finite sign mantissa place hpos hlow hhigh => cases sign <;> rfl

theorem ofInt_beq_zero (n : Int) : (Float.ofInt n == 0.0) = (n == 0) := by
  by_cases h : n = 0
  · subst h
    rfl
  · rw [(full_ofInt h).beq_zero, beq_false_of_ne h]

/-! ## Equal floats -/

theorem beq_zero_congr {x y : Float} (h : (x == y) = true) : (x == 0.0) = (y == 0.0) := by
  have hsame := beq_iff_same.mp h
  rw [Bool.eq_iff_iff, beq_zero_iff, beq_zero_iff, ← rational?_exact, ← rational?_exact]
  constructor
  · exact fun hx => Exact.rational?_of_same hx hsame
  · exact fun hy => Exact.rational?_of_same hy ((Exact.same_comm _ _).trans hsame)

end Calculator.Number
