import Mathlib.Data.Nat.Size
import Calculator.Proofs.Arithmetic.Exactness

/-!
# Bit operators on words

The bits of an integer go on to the left forever. The lowest sixty-four of them are a word, and an
integer in range is what its word says, read with a sign. For each operator on bits there is one on
words that comes to the same.
-/

namespace Calculator

namespace Arithmetic

/-- The lowest sixty-four bits. -/
def word (n : Int) : BitVec 64 := BitVec.ofInt 64 n

theorem toInt_word (n : Int) : (word n).toInt = wrap n := BitVec.toInt_ofInt n

theorem wrap_of_inRange {n : Int} (h : inRange n = true) : wrap n = n := by
  rw [inRange_iff] at h
  apply Int.bmod_eq_of_le <;>
  · simp only [wordSize]
    omega

/-- An integer in range is what its word says. -/
theorem eq_toInt {n : Int} {w : BitVec 64} (h : inRange n = true) (hword : word n = w) :
    n = w.toInt := by
  rw [← hword, toInt_word, wrap_of_inRange h]

/-! ## And, or -/

theorem word_ofNat (n : Nat) : word (.ofNat n) = BitVec.ofNat 64 n := BitVec.ofInt_natCast 64 n

theorem word_negSucc (n : Nat) : word (.negSucc n) = ~~~BitVec.ofNat 64 n :=
  BitVec.ofInt_negSucc_eq_not_ofNat

theorem ofNat_without (m n : Nat) :
    BitVec.ofNat 64 (without m n) = BitVec.ofNat 64 m &&& ~~~BitVec.ofNat 64 n := by
  rw [without, BitVec.ofNat_xor, BitVec.ofNat_and]
  ext i hi
  simp only [BitVec.getElem_xor, BitVec.getElem_and, BitVec.getElem_not]
  cases (BitVec.ofNat 64 m)[i] <;> cases (BitVec.ofNat 64 n)[i] <;> rfl

theorem word_bitAnd (a b : Int) : word (bitAndInts a b) = word a &&& word b := by
  rcases a with m | m <;> rcases b with n | n <;>
    simp only [bitAndInts, word_ofNat, word_negSucc, ofNat_without, BitVec.ofNat_and,
      BitVec.ofNat_or, BitVec.not_or]
  rw [BitVec.and_comm]

theorem word_bitOr (a b : Int) : word (bitOrInts a b) = word a ||| word b := by
  rcases a with m | m <;> rcases b with n | n <;>
    simp only [bitOrInts, word_ofNat, word_negSucc, ofNat_without, BitVec.ofNat_and,
      BitVec.ofNat_or, BitVec.not_and, BitVec.not_not]
  rw [BitVec.or_comm]

theorem word_bitXor (a b : Int) : word (bitXorInts a b) = word a ^^^ word b := by
  rcases a with m | m <;> rcases b with n | n <;>
    simp only [bitXorInts, word_ofNat, word_negSucc, BitVec.ofNat_xor]
  case ofNat.negSucc => exact BitVec.not_xor_right
  case negSucc.ofNat => exact BitVec.not_xor_left
  case negSucc.negSucc => rw [← BitVec.not_xor_left, ← BitVec.not_xor_right, BitVec.not_not]

/-! ## Shifts -/

theorem shiftLeftInts_eq (a b : Int) : shiftLeftInts a b = (word a <<< places b).toInt := by
  have hpower : word (Nat.pow 2 (places b) : Nat) = BitVec.twoPow 64 (places b) := by
    rw [word, BitVec.ofInt_natCast]
    apply BitVec.eq_of_toNat_eq
    rw [BitVec.toNat_ofNat, BitVec.toNat_twoPow]
    rfl
  rw [BitVec.shiftLeft_eq_mul_twoPow, ← hpower, word, word, ← BitVec.ofInt_mul]
  exact (toInt_word _).symm

theorem shiftRightInts_eq {a : Int} (ha : inRange a = true) (b : Int) :
    shiftRightInts a b = ((word a).sshiftRight (places b)).toInt := by
  rw [BitVec.toInt_sshiftRight, toInt_word, wrap_of_inRange ha, Int.shiftRight_eq_div_pow]
  rfl

/-! ## Complements -/

theorem word_complement (a : Int) : word (-a - 1) = ~~~word a := by
  cases a with
  | ofNat m =>
    have hneg : -Int.ofNat m - 1 = .negSucc m := by
      rw [Int.ofNat_eq_natCast, Int.negSucc_eq]
      omega
    rw [hneg, word_negSucc, word_ofNat]
  | negSucc m =>
    have hpos : -Int.negSucc m - 1 = .ofNat m := by
      rw [Int.ofNat_eq_natCast, Int.negSucc_eq]
      omega
    rw [hpos, word_negSucc, word_ofNat, BitVec.not_not]

theorem size_eq {n : Nat} (h : n ≠ 0) : n.size = n.log2 + 1 := by
  apply Nat.le_antisymm
  · exact Nat.size_le.mpr Nat.lt_log2_self
  · exact Nat.lt_size.mpr (Nat.log2_self_le h)

/-- A positive number keeps as many bits as it has. -/
theorem complementInt_of_pos {a : Int} (h : 0 < a) :
    complementInt a = 2 ^ a.toNat.size - 1 - a := by
  have hlt : a.toNat < 2 ^ a.toNat.size := Nat.lt_size_self _
  have hsize : a.toNat.log2 + 1 = a.toNat.size := (size_eq (by omega)).symm
  have hcast : ((2 ^ a.toNat.size : Nat) : Int) = 2 ^ a.toNat.size := Int.natCast_pow 2 _
  unfold complementInt
  rw [if_neg (by omega), hsize]
  change (-a - 1) % ((2 ^ a.toNat.size : Nat) : Int) = _
  rw [← hcast, ← Int.add_emod_right]
  rw [Int.emod_eq_of_lt] <;> omega

/-- The same bits, taken out of the complement of the word. -/
theorem setWidth_complement {a : Int} (h : 0 < a) (hrange : inRange a = true) :
    (((~~~word a).setWidth a.toNat.size).toNat : Int) = 2 ^ a.toNat.size - 1 - a := by
  have hlt : a.toNat < 2 ^ a.toNat.size := Nat.lt_size_self _
  have hbounds := inRange_iff.mp hrange
  have hsize : a.toNat.size ≤ 64 := Nat.size_le.mpr (by omega)
  have hword : (word a).toNat = a.toNat := by
    have hnat : word a = BitVec.ofNat 64 a.toNat := by
      rw [← word_ofNat, Int.ofNat_eq_natCast, Int.toNat_of_nonneg (Int.le_of_lt h)]
    rw [hnat, BitVec.toNat_ofNat]
    exact Nat.mod_eq_of_lt (by omega)
  have hcast : ((2 ^ a.toNat.size : Nat) : Int) = 2 ^ a.toNat.size := Int.natCast_pow 2 _
  rw [BitVec.setWidth_not hsize, BitVec.toNat_not, BitVec.toNat_setWidth, hword,
    Nat.mod_eq_of_lt hlt, ← hcast]
  omega

theorem complementInt_eq {a : Int} (ha : inRange a = true) :
    complementInt a = if a ≤ 0 then (~~~word a).toInt
      else (((~~~word a).setWidth a.toNat.size).toNat : Int) := by
  split
  case isTrue hle =>
    have hcomplement : complementInt a = -a - 1 := if_pos hle
    apply eq_toInt (inRange_complement ha)
    rw [hcomplement, word_complement]
  case isFalse hpos =>
    rw [complementInt_of_pos (by omega), setWidth_complement (by omega) ha]

end Arithmetic

open Arithmetic

/-! ## Operations on values -/

/-- What operators on bits come to. Shifts go by the last six bits of the number of places. -/
theorem bit_operators_on_words (site : Site) (a b : Int) (ha : inRange a = true)
    (hb : inRange b = true) :
    Operator.bitAnd.apply site (.int a) (.int b) = .ok (.int (word a &&& word b).toInt) ∧
    Operator.bitOr.apply site (.int a) (.int b) = .ok (.int (word a ||| word b).toInt) ∧
    Operator.bitXor.apply site (.int a) (.int b) = .ok (.int (word a ^^^ word b).toInt) ∧
    Operator.shiftLeft.apply site (.int a) (.int b) =
      .ok (.int (word a <<< (b % 64).toNat).toInt) ∧
    Operator.shiftRight.apply site (.int a) (.int b) =
      .ok (.int ((word a).sshiftRight (b % 64).toNat).toInt) ∧
    complement site (.int a) =
      .ok (.int (if a ≤ 0 then (~~~word a).toInt
        else (((~~~word a).setWidth a.toNat.size).toNat : Int))) ∧
    (0 < a → (((~~~word a).setWidth a.toNat.size).toNat : Int) = 2 ^ a.toNat.size - 1 - a) ∧
    (∀ operator ∈ [Operator.bitAnd, .bitOr, .bitXor, .shiftLeft, .shiftRight],
      ∃ n, operator.apply site (.int a) (.int b) = .ok (.int n) ∧ inRange n = true) ∧
    ∃ n, complement site (.int a) = .ok (.int n) ∧ inRange n = true := by
  have hand : bitAndInts a b = (word a &&& word b).toInt :=
    eq_toInt (inRange_bitAnd ha hb) (word_bitAnd a b)
  have hor : bitOrInts a b = (word a ||| word b).toInt :=
    eq_toInt (inRange_bitOr ha hb) (word_bitOr a b)
  have hxor : bitXorInts a b = (word a ^^^ word b).toInt :=
    eq_toInt (inRange_bitXor ha hb) (word_bitXor a b)
  have hleft : shiftLeftInts a b = (word a <<< (b % 64).toNat).toInt := shiftLeftInts_eq a b
  have hright : shiftRightInts a b = ((word a).sshiftRight (b % 64).toNat).toInt :=
    shiftRightInts_eq ha b
  rw [← hand, ← hor, ← hxor, ← hleft, ← hright, ← complementInt_eq ha]
  refine ⟨Operator.apply_ints site _ a b, Operator.apply_ints site _ a b,
    Operator.apply_ints site _ a b, Operator.apply_ints site _ a b,
    Operator.apply_ints site _ a b, rfl, fun hpos => setWidth_complement hpos ha,
    fun operator hoperator => ?_, ⟨_, rfl, inRange_complement ha⟩⟩
  obtain ⟨n, hn⟩ : ∃ n, operator.onInts a b = some n := by
    simp only [List.mem_cons, List.not_mem_nil, or_false] at hoperator
    rcases hoperator with rfl | rfl | rfl | rfl | rfl <;> exact ⟨_, rfl⟩
  refine ⟨n, ?_, operator.onInts_inRange ha hb hn⟩
  rw [Operator.apply_ints, hn]
  rfl

/-- A shift by minus one is one by sixty-three, and leaves nothing but the sign. -/
theorem bit_operators_on_words_negative :
    inRange (-6) = true ∧ inRange (-1) = true ∧
    Operator.bitAnd.apply ⟨"q", 0⟩ (.int (-6)) (.int (-1)) = .ok (.int (-6)) ∧
    Operator.shiftRight.apply ⟨"q", 0⟩ (.int (-6)) (.int (-1)) = .ok (.int (-1)) ∧
    complement ⟨"q", 0⟩ (.int (-6)) = .ok (.int 5) := by
  obtain ⟨hand, -, -, -, hright, hcomplement, -⟩ :=
    bit_operators_on_words ⟨"q", 0⟩ (-6) (-1) (by decide) (by decide)
  refine ⟨by decide, by decide, hand, hright, hcomplement⟩

end Calculator
