import Mathlib.Tactic.Ring
import Calculator.Number.Exact
import Calculator.Proofs.Arithmetic.Range
import Calculator.Proofs.Number.Rounding

/-!
# The float nearest to an integer

Every integer of sixty-four bits has one, and it stands for the integer that is rounded to
fifty-three bits. So floats of integers are compared as the rounded integers are.
-/

namespace Calculator.Number

open Float.Model (Format UnpackedFloat totalExponent)
open Float.Model.UnpackedFloat

/-! ## Cutting bits off -/

/-- What is known of a number after all bits below the unit have been cut off. -/
structure CutOff (n unit : Nat) (em : ExtendedMantissa) : Prop where
  mantissa : em.mantissa = n / unit
  roundBit : em.roundBit = decide (unit ≤ 2 * (n % unit))
  stickyBit : em.stickyBit = decide (n % unit ≠ 0 ∧ 2 * (n % unit) ≠ unit)

theorem CutOff.roundedMantissa {n unit : Nat} {em : ExtendedMantissa} (h : CutOff n unit em)
    (hpos : 0 < unit) : em.roundedMantissa = unitsIn n unit := by
  obtain ⟨mantissa, roundBit, stickyBit⟩ := em
  obtain ⟨rfl, hround, hsticky⟩ := h
  dsimp only at hround hsticky
  unfold unitsIn
  cases roundBit <;> cases stickyBit <;>
    simp [ExtendedMantissa.roundedMantissa, ExtendedMantissa.accuracy,
      Accuracy.roundToNearestEven] at hround hsticky ⊢ <;> grind

theorem CutOff.shiftRightOne {n unit : Nat} {em : ExtendedMantissa} (h : CutOff n unit em)
    (hpos : 0 < unit) : CutOff n (unit * 2) em.shiftRightOne := by
  have hlt : n % unit < unit := Nat.mod_lt n hpos
  -- The last bit of the mantissa becomes the first bit of the rest.
  have hrest : n % (unit * 2) = n % unit + unit * (n / unit % 2) := Nat.mod_mul
  constructor
  case mantissa =>
    rw [ExtendedMantissa.shiftRightOne, h.mantissa, Nat.div_div_eq_div_mul]
  case roundBit =>
    rw [ExtendedMantissa.shiftRightOne, h.mantissa, hrest]
    rcases Nat.mod_two_eq_zero_or_one (n / unit) with heven | hodd
    · have hno : ¬unit * 2 ≤ 2 * (n % unit + unit * 0) := by omega
      rw [heven, decide_eq_false hno]
      rfl
    · have hyes : unit * 2 ≤ 2 * (n % unit + unit * 1) := by omega
      rw [hodd, decide_eq_true hyes]
      rfl
  case stickyBit =>
    rw [ExtendedMantissa.shiftRightOne, h.roundBit, h.stickyBit, hrest, ← Bool.decide_or]
    refine decide_eq_decide.mpr ?_
    rcases Nat.mod_two_eq_zero_or_one (n / unit) with hbit | hbit <;> rw [hbit] <;> omega

theorem cutOff_shiftRight (n k : Nat) :
    CutOff n (2 ^ k) (ExtendedMantissa.ofMantissaAndAccuracy n .exact >>> k) := by
  induction k with
  | zero =>
    have hrest : n % 2 ^ 0 = 0 := Nat.mod_one n
    exact ⟨(Nat.div_one n).symm, by rw [hrest]; rfl, by rw [hrest]; rfl⟩
  | succ k ih => exact ih.shiftRightOne (Nat.two_pow_pos k)

/-! ## Floats that stand for whole numbers -/

/--
The float has the sign and the size `v`, and fifty-three bits unless it is zero. Its exponent is
counted from `-104`, which is as low as one gets for a whole number on the way.
-/
inductive Denotes (sign : Sign) : UnpackedFloat → Nat → Prop where
  | zero : Denotes sign (.zero sign) 0
  | finite {mantissa place v : Nat} (hpos : 0 < mantissa) (hlow : 2 ^ 52 ≤ mantissa)
      (hhigh : mantissa < 2 ^ 53) (hvalue : mantissa * 2 ^ place = v * 2 ^ 104) :
      Denotes sign (.finite sign mantissa (place - 104) hpos) v

theorem shiftToTarget_eq {n : Nat} (h : 2 ^ 52 ≤ n) (place : Nat) :
    shiftToTargetExponent Format.binary64 n ((place : Int) - 104) .exact =
      (ExtendedMantissa.ofMantissaAndAccuracy n .exact >>> (n.log2 - 52),
        ((place + (n.log2 - 52) : Nat) : Int) - 104) := by
  have hlog : 52 ≤ n.log2 := (Nat.le_log2 (by omega)).mpr h
  have htarget : Format.binary64.targetExponent (totalExponent n ((place : Int) - 104)) =
      max ((n.log2 : Int) + 1 + (place - 104) - 53) (-1074) := rfl
  have hshift : (Format.binary64.targetExponent (totalExponent n ((place : Int) - 104)) -
      ((place : Int) - 104)).toNat = n.log2 - 52 := by omega
  rw [shiftToTargetExponent, shiftToExponent, hshift]
  refine Prod.ext rfl ?_
  change (place : Int) - 104 + (n.log2 - 52 : Nat) = _
  omega

theorem finite_congr (sign : Sign) {m n : Nat} {d e : Int} {hm : 0 < m} (hmn : m = n)
    (hde : d = e) : UnpackedFloat.finite sign m d hm = .finite sign n e (hmn ▸ hm) := by
  subst hmn hde
  rfl

/-- The second cut follows a carry into one bit more, and loses nothing. -/
theorem denotes_round (sign : Sign) {n place v : Nat} (hn : 2 ^ 52 ≤ n)
    (hvalue : nearestNat n * 2 ^ place = v * 2 ^ 104) :
    Denotes sign (roundWithAccuracy Format.binary64 sign n ((place : Int) - 104) .exact) v := by
  have hfirst := (cutOff_shiftRight n (n.log2 - 52)).roundedMantissa (unit_pos n)
  have hlow : 2 ^ 52 ≤ unitsIn n (unit n) := (pow_le_div_unit hn).trans (le_unitsIn n _)
  -- A carry can reach the next power of two, but does not go beyond it.
  have hhigh : unitsIn n (unit n) ≤ 2 ^ 53 := (unitsIn_le n _).trans (div_unit_lt hn)
  unfold roundWithAccuracy
  rw [shiftToTarget_eq hn]
  dsimp only
  rw [hfirst, ← unit]
  rw [nearestNat] at hvalue
  generalize unitsIn n (unit n) = units at hlow hhigh hvalue
  have hsecond : (ExtendedMantissa.ofMantissaAndAccuracy units .exact >>>
      (units.log2 - 52)).mantissa = units / unit units := (cutOff_shiftRight units _).mantissa
  have hmantissa := pow_le_div_unit hlow
  rw [shiftToTarget_eq hlow]
  dsimp only
  rw [dif_neg (by rw [hsecond]; omega), finite_congr sign hsecond rfl]
  refine .finite _ hmantissa (div_unit_lt hlow) ?_
  calc units / unit units * 2 ^ (place + (n.log2 - 52) + (units.log2 - 52))
    _ = units / unit units * unit units * unit n * 2 ^ place := by
      rw [unit, unit, Nat.pow_add, Nat.pow_add]
      ring
    _ = v * 2 ^ 104 := by rw [div_mul_unit hhigh, hvalue]

/-! ## Floats as bits -/

theorem unpackSign_packComponents {spec : Float.Model.Format} {sign : Sign} {exponent mantissa} :
    unpackSign (packComponents spec sign exponent mantissa) = sign.toBitVec := by
  change ((sign.toBitVec ++ exponent ++ mantissa).extractLsb _ _).cast _ = _
  ext i hi
  have hlast : i = 0 := by omega
  simp [hlast, BitVec.getLsbD_append, BitVec.getElem_append]

theorem ofBitVec_toBitVec (sign : Sign) : Sign.ofBitVec sign.toBitVec = sign := by
  cases sign <;> rfl

theorem unpack_normal (sign : Sign) {field : BitVec 11} {mantissa : BitVec 52}
    (hpos : 0 < (1#1 ++ mantissa).toNat) (hones : field ≠ -1#11) (hzero : field ≠ 0#11) :
    unpack Format.binary64 (packComponents Format.binary64 sign field mantissa) =
      .finite sign (1#1 ++ mantissa).toNat (field.toNat - 1075) hpos := by
  have hfield : unpackExponent (packComponents Format.binary64 sign field mantissa) = field :=
    unpackExponent_packComponents
  have hmantissa : unpackMantissa (packComponents Format.binary64 sign field mantissa) = mantissa :=
    unpackMantissa_packComponents
  unfold unpack
  dsimp only
  rw [hfield, if_neg hones, if_neg hzero, unpackSign_packComponents, ofBitVec_toBitVec]
  exact finite_congr sign (by rw [hmantissa]) rfl

/-- The leading bit is not stored. -/
theorem toNat_leading (mantissa : BitVec 52) :
    (1#1 ++ mantissa).toNat = mantissa.toNat + leadingBit := by
  rw [BitVec.toNat_append, BitVec.toNat_ofNat, Nat.shiftLeft_eq, Nat.or_comm,
    Nat.mod_eq_of_lt (by decide : 1 < 2 ^ 1), Nat.one_mul,
    Nat.or_two_pow_eq_add_of_lt mantissa.isLt]
  rfl

theorem unpack_pack_finite (sign : Sign) {mantissa place : Nat} (hpos : 0 < mantissa)
    (hlow : 2 ^ 52 ≤ mantissa) (hhigh : mantissa < 2 ^ 53) (hplace : place < 1076) :
    unpack Format.binary64 (pack Format.binary64 (.finite sign mantissa (place - 104) hpos)) =
      .finite sign mantissa (place - 104) hpos := by
  have hlog : mantissa.log2 + 1 = Format.binary64.mantissaBits :=
    congrArg (· + 1) ((Nat.log2_eq_iff (by omega)).mpr ⟨hlow, hhigh⟩)
  have hbiased : ((place : Int) - 104 + Format.binary64.exponentBias +
      Format.binary64.mantissaBitsWithoutImplicit).toNat = place + 971 := by
    change ((place : Int) - 104 + 1023 + 52).toNat = place + 971
    omega
  have hnormal : ¬2 ^ Format.binary64.exponentBits ≤ place + 971 + 1 := by
    change ¬2048 ≤ place + 971 + 1
    omega
  have hfield : (BitVec.ofNat 11 (place + 971)).toNat = place + 971 := by
    rw [BitVec.toNat_ofNat]
    exact Nat.mod_eq_of_lt (by omega)
  have hones : BitVec.ofNat 11 (place + 971) ≠ -1#11 := by
    intro heq
    rw [heq] at hfield
    have hall : (-1#11 : BitVec 11).toNat = 2047 := rfl
    omega
  have hzero : BitVec.ofNat 11 (place + 971) ≠ 0#11 := by
    intro heq
    rw [heq] at hfield
    have hnone : (0#11 : BitVec 11).toNat = 0 := rfl
    omega
  have hpack : pack Format.binary64 (.finite sign mantissa (place - 104) hpos) =
      packComponents Format.binary64 sign (BitVec.ofNat 11 (place + 971))
        (BitVec.ofNat 52 mantissa) := by
    rw [← hbiased]
    rw [← hbiased] at hnormal
    exact (if_neg hnormal).trans (if_pos hlog)
  rw [hpack]
  have hleading : (1#1 ++ BitVec.ofNat 52 mantissa).toNat = mantissa := by
    rw [toNat_leading, BitVec.toNat_ofNat, leadingBit]
    omega
  refine (unpack_normal sign (hleading.symm ▸ hpos) hones hzero).trans ?_
  exact finite_congr sign hleading (by rw [hfield]; omega)

/-! ## The nearest float -/

section Nearest

variable {sign : Sign} {u : UnpackedFloat} {n v : Nat}

theorem Denotes.unpack_pack (h : Denotes sign u v) (hv : v ≤ 2 ^ 64) :
    Denotes sign (unpack Format.binary64 (pack Format.binary64 u)) v := by
  cases h with
  | zero => cases sign <;> exact .zero
  | @finite mantissa place v hpos hlow hhigh hvalue =>
    -- Any further up, the number would not fit into sixty-four bits.
    have hplace : place ≤ 200 := by
      by_contra hlarge
      have hpow : 2 ^ 200 ≤ 2 ^ place := Nat.pow_le_pow_right (by decide) (by omega)
      have hproduct := Nat.mul_le_mul hlow hpow
      omega
    rw [unpack_pack_finite sign hpos hlow hhigh (by omega)]
    exact .finite hpos hlow hhigh hvalue

theorem Denotes.mul_one (h : Denotes sign u v) :
    Denotes sign (mul Format.binary64 u (.finite .positive (2 ^ 52) (-52) (by decide))) v := by
  have hsign : sign * .positive = sign := by cases sign <;> rfl
  cases h with
  | zero =>
    change Denotes sign (.zero (sign * .positive)) 0
    rw [hsign]
    exact .zero
  | @finite mantissa place v hpos hlow hhigh hvalue =>
    -- Any further down, the number would be less than one.
    have hplace : 52 ≤ place := by
      by_contra hsmall
      have hpow : 2 ^ place ≤ 2 ^ 51 := Nat.pow_le_pow_right (by decide) (by omega)
      have hproduct : mantissa * 2 ^ place ≤ (2 ^ 53 - 1) * 2 ^ 51 :=
        Nat.mul_le_mul (by omega) hpow
      have hnonzero : 0 < mantissa * 2 ^ place := Nat.mul_pos hpos (Nat.two_pow_pos place)
      omega
    have hexponent : (place : Int) - 104 + -52 = (place - 52 : Nat) - 104 := by omega
    change Denotes sign
      (roundWithAccuracy _ (sign * .positive) (mantissa * 2 ^ 52) (place - 104 + -52) .exact) v
    rw [hsign, hexponent]
    apply denotes_round sign (by omega)
    rw [nearestNat_mul_pow hlow, nearestNat_of_lt hhigh, Nat.mul_assoc, ← Nat.pow_add,
      Nat.add_sub_cancel' hplace, hvalue]

theorem Denotes.isFinite (h : Denotes sign u v) : u.isFinite = true := by
  cases h <;> rfl

theorem Denotes.neg (h : Denotes .positive u v) : Denotes .negative u.neg v := by
  cases h with
  | zero => exact .zero
  | finite hpos hlow hhigh hvalue => exact .finite hpos hlow hhigh hvalue

/-- Zeros are put behind the bits until there are fifty-three of them. -/
theorem ofNat_eq_round (hpos : 0 < n) (h : n < 2 ^ 53) :
    UnpackedFloat.ofNat Format.binary64 n = roundWithAccuracy Format.binary64 .positive
      (n * 2 ^ (52 - n.log2)) ((52 + n.log2 : Nat) - 104) .exact := by
  have hcompare : compare (n : Int) 0 = .gt := by
    rw [Std.compare_eq_gt]
    omega
  have hlog : n.log2 ≤ 52 := Nat.le_of_lt_succ ((Nat.log2_lt (by omega)).mpr h)
  have htarget : Format.binary64.targetExponent (totalExponent n 0) =
      max ((n.log2 : Int) + 1 + 0 - 53) (-1074) := rfl
  have hshift : (0 - Format.binary64.targetExponent (totalExponent n 0)).toNat = 52 - n.log2 := by
    omega
  have hexponent : (0 : Int) - (52 - n.log2 : Nat) = (52 + n.log2 : Nat) - 104 := by omega
  unfold UnpackedFloat.ofNat UnpackedFloat.ofInt UnpackedFloat.normalize
  rw [hcompare]
  dsimp only
  rw [Int.toNat_natCast]
  unfold UnpackedFloat.round decreaseExponent
  dsimp only
  rw [hshift, Nat.shiftLeft_eq, hexponent]

theorem denotes_ofNat (h : n < 2 ^ 53) :
    Denotes .positive (UnpackedFloat.ofNat Format.binary64 n) n := by
  by_cases hzero : n = 0
  · subst hzero
    exact .zero
  have hlog : n.log2 ≤ 52 := Nat.le_of_lt_succ ((Nat.log2_lt hzero).mpr h)
  have hpow : 2 ^ n.log2 * 2 ^ (52 - n.log2) = 2 ^ 52 := by
    rw [← Nat.pow_add, Nat.add_sub_cancel' hlog]
  have hlow := Nat.mul_le_mul_right (2 ^ (52 - n.log2)) (Nat.log2_self_le hzero)
  have hhigh := Nat.mul_lt_mul_of_pos_right (Nat.lt_log2_self (n := n))
    (Nat.two_pow_pos (52 - n.log2))
  rw [hpow] at hlow
  rw [Nat.pow_succ, Nat.mul_right_comm, hpow] at hhigh
  have hplaces : 52 - n.log2 + (52 + n.log2) = 104 := by omega
  rw [ofNat_eq_round (Nat.pos_of_ne_zero hzero) h]
  apply denotes_round .positive hlow
  rw [nearestNat_of_lt hhigh, Nat.mul_assoc, ← Nat.pow_add, hplaces]

/-- The tenth power that stands beside a whole number is one. -/
theorem denotes_scaled (h : 2 ^ 53 ≤ n) (hpos : 0 < n <<< Format.binary64.mantissaBits) :
    Denotes .positive (mul Format.binary64
      (.finite .positive (n <<< Format.binary64.mantissaBits) (-Format.binary64.mantissaBits) hpos)
      (.finite .positive (10 ^ Int.toNat 0) 0 (Nat.pow_pos (by decide)))) (nearestNat n) := by
  have hexponent : -(Format.binary64.mantissaBits : Int) + 0 = (51 : Nat) - 104 := rfl
  have hbits : n <<< Format.binary64.mantissaBits * 10 ^ Int.toNat 0 = n * 2 ^ 53 := by
    rw [Int.toNat_zero, Nat.pow_zero, Nat.mul_one, Nat.shiftLeft_eq]
    rfl
  unfold mul
  dsimp only
  rw [hexponent, hbits]
  apply denotes_round (.positive * .positive) (by omega)
  rw [nearestNat_mul_pow (by omega), Nat.mul_assoc, ← Nat.pow_add]

theorem denotes_ofScientific (h : 2 ^ 53 ≤ n) :
    Denotes .positive (UnpackedFloat.ofScientific Format.binary64 n 0) (nearestNat n) := by
  have hpower : (0 : Int) < 2 ^ Format.binary64.exponentBits := by decide
  unfold UnpackedFloat.ofScientific
  rw [dif_neg (by omega), if_neg (by omega), if_neg (by omega), if_pos (Int.le_refl 0)]
  exact denotes_scaled h _

/-- One as a float, without its sign and its bias. -/
theorem unpack_one : (Float.ofBits 0x3FF0000000000000).toModel.unpack =
    .finite .positive (2 ^ 52) (-52) (by decide) := by
  rfl

theorem denotes_natFloat (h : n < 2 ^ 64) :
    Denotes .positive (Float.ofNat n).toModel.unpack (nearestNat n) := by
  change Denotes .positive (Float.ofScientific n false 0).toModel.unpack (nearestNat n)
  unfold Float.ofScientific
  split
  case isTrue hsmall =>
    have hword : n.toUInt64.toNat = n := Nat.mod_eq_of_lt h
    have hn : Denotes .positive (n.toUInt64.toFloat).toModel.unpack n := by
      apply Denotes.unpack_pack _ (Nat.le_of_lt h)
      unfold UnpackedFloat.ofUInt64
      rw [hword]
      exact denotes_ofNat hsmall.1
    have hproduct := hn.mul_one
    rw [← unpack_one] at hproduct
    rw [nearestNat_of_lt hsmall.1]
    exact hproduct.unpack_pack (Nat.le_of_lt h)
  case isFalse hlarge =>
    have hscaled : Denotes .positive (UnpackedFloat.ofScientific Format.binary64 n 0) _ :=
      denotes_ofScientific (by omega)
    exact hscaled.unpack_pack (nearestNat_le h)

end Nearest

/-! ## Order -/

section Order

variable {m n k l v w : Nat}

theorem size_lt_of_place (hm : m < 2 ^ 53) (hn : 2 ^ 52 ≤ n) (hv : m * 2 ^ k = v * 2 ^ 104)
    (hw : n * 2 ^ l = w * 2 ^ 104) (h : k < l) : v < w := by
  have hproduct : v * 2 ^ 104 < w * 2 ^ 104 := by
    calc v * 2 ^ 104
      _ = m * 2 ^ k := hv.symm
      _ < 2 ^ 53 * 2 ^ k := Nat.mul_lt_mul_of_pos_right hm (Nat.two_pow_pos k)
      _ = 2 ^ 52 * 2 ^ (k + 1) := by omega
      _ ≤ n * 2 ^ l := Nat.mul_le_mul hn (Nat.pow_le_pow_right (by decide) h)
      _ = w * 2 ^ 104 := hw
  omega

theorem size_lt_of_mantissa (hv : m * 2 ^ k = v * 2 ^ 104) (hw : n * 2 ^ k = w * 2 ^ 104)
    (h : m < n) : v < w := by
  have hproduct := Nat.mul_lt_mul_of_pos_right h (Nat.two_pow_pos k)
  omega

theorem size_eq (hv : m * 2 ^ k = v * 2 ^ 104) (hw : m * 2 ^ k = w * 2 ^ 104) : v = w := by
  omega

/-- The places are compared first. -/
theorem compare_sizes (hm : 2 ^ 52 ≤ m) (hm' : m < 2 ^ 53) (hn : 2 ^ 52 ≤ n) (hn' : n < 2 ^ 53)
    (hv : m * 2 ^ k = v * 2 ^ 104) (hw : n * 2 ^ l = w * 2 ^ 104) :
    (compare ((k : Int) - 104) (l - 104)).then (compare m n) = compare (v : Int) w := by
  rcases Nat.lt_trichotomy k l with hlt | rfl | hgt
  · have hsize := size_lt_of_place hm' hn hv hw hlt
    rw [Std.compare_eq_lt.mpr (by omega), Std.compare_eq_lt.mpr (by omega : (v : Int) < w)]
    rfl
  · rw [Std.compare_self, Ordering.eq_then]
    rcases Nat.lt_trichotomy m n with hlt | rfl | hgt
    · have hsize := size_lt_of_mantissa hv hw hlt
      rw [Std.compare_eq_lt.mpr hlt, Std.compare_eq_lt.mpr (by omega : (v : Int) < w)]
    · rw [size_eq hv hw, Std.compare_self, Std.compare_self]
    · have hsize := size_lt_of_mantissa hw hv hgt
      rw [Std.compare_eq_gt.mpr hgt, Std.compare_eq_gt.mpr (by omega : (w : Int) < v)]
  · have hsize := size_lt_of_place hn' hm hw hv hgt
    rw [Std.compare_eq_gt.mpr (by omega), Std.compare_eq_gt.mpr (by omega : (w : Int) < v)]
    rfl

theorem size_pos (hm : 0 < m) (hv : m * 2 ^ k = v * 2 ^ 104) : 0 < v := by
  have hproduct := Nat.mul_pos hm (Nat.two_pow_pos k)
  omega

theorem compare_neg (a b : Int) : compare (-a) (-b) = (compare a b).swap := by
  rcases Int.lt_trichotomy a b with hlt | rfl | hgt
  · rw [Std.compare_eq_lt.mpr hlt, Std.compare_eq_gt.mpr (by omega)]
    rfl
  · rw [Std.compare_self, Std.compare_self]
    rfl
  · rw [Std.compare_eq_gt.mpr hgt, Std.compare_eq_lt.mpr (by omega)]
    rfl

/-- Floats that stand for whole numbers are compared as these. -/
theorem Denotes.compare {s t : Sign} {x y : UnpackedFloat} (hx : Denotes s x v)
    (hy : Denotes t y w) : x.compare y = some (compare (s.apply v) (t.apply w)) := by
  have hlt {a b : Int} (h : a < b) : some Ordering.lt = some (Ord.compare a b) :=
    congrArg some (Std.compare_eq_lt.mpr h).symm
  have hgt {a b : Int} (h : b < a) : some Ordering.gt = some (Ord.compare a b) :=
    congrArg some (Std.compare_eq_gt.mpr h).symm
  cases hx with
  | zero =>
    cases hy with
    | zero => cases s <;> cases t <;> rfl
    | finite hpos hlow hhigh hvalue =>
      have hw := size_pos hpos hvalue
      cases s <;> cases t
      case negative.negative | positive.negative => exact hgt (by change -(w : Int) < 0; omega)
      case negative.positive | positive.positive => exact hlt (by change (0 : Int) < w; omega)
  | finite hpos hlow hhigh hvalue =>
    have hv := size_pos hpos hvalue
    cases hy with
    | zero =>
      cases s <;> cases t
      case negative.negative | negative.positive => exact hlt (by change -(v : Int) < 0; omega)
      case positive.negative | positive.positive => exact hgt (by change (0 : Int) < v; omega)
    | finite hpos' hlow' hhigh' hvalue' =>
      have hw := size_pos hpos' hvalue'
      have hsizes := compare_sizes hlow hhigh hlow' hhigh' hvalue hvalue'
      cases s <;> cases t
      case negative.negative =>
        change some (Ordering.swap _) = some (Ord.compare (-(v : Int)) (-w))
        rw [hsizes, compare_neg]
      case negative.positive => exact hlt (by change -(v : Int) < w; omega)
      case positive.negative => exact hgt (by change -(w : Int) < v; omega)
      case positive.positive => exact congrArg some hsizes

end Order

/-! ## Integers -/

theorem denotes_ofInt {n : Int} (h : inRange n = true) :
    ∃ sign size, Denotes sign (Float.ofInt n).toModel.unpack size ∧
      sign.apply size = nearest n := by
  cases n with
  | ofNat m =>
    rw [inRange_ofNat] at h
    exact ⟨.positive, _, denotes_natFloat (by omega), rfl⟩
  | negSucc m =>
    rw [inRange_negSucc] at h
    have hm : Denotes .positive (Float.ofNat (m + 1)).toModel.unpack _ := denotes_natFloat (by omega)
    exact ⟨.negative, _, hm.neg.unpack_pack (nearestNat_le (by omega)), rfl⟩

theorem isFinite_ofInt {n : Int} (h : inRange n = true) : (Float.ofInt n).isFinite = true := by
  obtain ⟨sign, size, hdenotes, -⟩ := denotes_ofInt h
  exact hdenotes.isFinite

/-- An integer that is in range has a nearest float. -/
theorem toFloat_eq {n : Int} (h : inRange n = true) : toFloat n = .ok (Float.ofInt n) := by
  unfold toFloat toFloat?
  dsimp only
  rw [if_pos (isFinite_ofInt h)]

theorem compare_ofInt {a b : Int} (ha : inRange a = true) (hb : inRange b = true) :
    (Float.ofInt a).toModel.unpack.compare (Float.ofInt b).toModel.unpack =
      some (compare (nearest a) (nearest b)) := by
  obtain ⟨s, v, hx, hv⟩ := denotes_ofInt ha
  obtain ⟨t, w, hy, hw⟩ := denotes_ofInt hb
  rw [hx.compare hy, hv, hw]

section Compared

variable {a b : Int}

theorem ofInt_lt (ha : inRange a = true) (hb : inRange b = true) :
    Float.ofInt a < Float.ofInt b ↔ nearest a < nearest b := by
  change decide (UnpackedFloat.lt (Float.ofInt a).toModel.unpack _ = true) = true ↔ _
  rw [decide_eq_true_iff, UnpackedFloat.lt, compare_ofInt ha hb, beq_iff_eq, Option.some_inj,
    Std.compare_eq_lt]

theorem ofInt_le (ha : inRange a = true) (hb : inRange b = true) :
    Float.ofInt a ≤ Float.ofInt b ↔ nearest a ≤ nearest b := by
  change decide (UnpackedFloat.le (Float.ofInt a).toModel.unpack _ = true) = true ↔ _
  rw [decide_eq_true_iff, UnpackedFloat.le, compare_ofInt ha hb, Option.any_some,
    Std.isLE_compare]

theorem ofInt_beq (ha : inRange a = true) (hb : inRange b = true) :
    (Float.ofInt a == Float.ofInt b) = true ↔ nearest a = nearest b := by
  change (UnpackedFloat.compare (Float.ofInt a).toModel.unpack _ == some .eq) = true ↔ _
  rw [compare_ofInt ha hb, beq_iff_eq, Option.some_inj, Std.compare_eq_iff_eq]

end Compared

end Calculator.Number
