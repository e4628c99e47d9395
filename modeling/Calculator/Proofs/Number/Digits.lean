import Calculator.Evaluation.Literal
import Calculator.Proofs.Grammar.Numerals

/-!
# Digits of numbers

The digits of a number stand for it, in each base up to sixteen. Decimal digits are read as the
number, as a literal and anywhere else.
-/

namespace Calculator

open Evaluation Grammar Number Text

/-! ## Each digit -/

theorem mem_toDigits {base : Nat} (hbase : 1 < base) (n : Nat) :
    ∀ c ∈ Nat.toDigits base n, ∃ d < base, c = d.digitChar := by
  induction n using Nat.strongRecOn with
  | ind n ih =>
    intro c hc
    rw [Nat.toDigits_eq_if hbase] at hc
    split at hc
    case isTrue hlt => exact ⟨n, hlt, List.mem_singleton.mp hc⟩
    case isFalse hle =>
      rcases List.mem_append.mp hc with hc | hc
      · exact ih (n / base) (Nat.div_lt_self (by omega) hbase) c hc
      · exact ⟨n % base, Nat.mod_lt n (by omega), List.mem_singleton.mp hc⟩

theorem isDecimal_of_mem_toDigits {n : Nat} {c : Char} (h : c ∈ Nat.toDigits 10 n) :
    isDecimal c = true := by
  have hdigit : ∀ d < 10, isDecimal d.digitChar = true := by decide
  obtain ⟨d, hd, rfl⟩ := mem_toDigits (by decide) n c h
  exact hdigit d hd

/-- No number but zero is written with a zero at the start. -/
theorem toDigits_head {n : Nat} (h : 0 < n) : ∃ c cs, Nat.toDigits 10 n = c :: cs ∧ c ≠ '0' := by
  induction n using Nat.strongRecOn with
  | ind n ih =>
    rw [Nat.toDigits_eq_if (by decide)]
    split
    case isTrue hlt =>
      have hdigit : ∀ d < 10, 0 < d → d.digitChar ≠ '0' := by decide
      exact ⟨_, [], rfl, hdigit n hlt h⟩
    case isFalse hle =>
      obtain ⟨c, cs, hdigits, hc⟩ :=
        ih (n / 10) (Nat.div_lt_self h (by decide)) (Nat.div_pos (Nat.not_lt.mp hle) (by decide))
      exact ⟨c, cs ++ [(n % 10).digitChar], by rw [hdigits]; rfl, hc⟩

/-! ## In any base -/

namespace Evaluation

theorem valueInBase_concat (base : Nat) (cs : List Char) (c : Char) :
    valueInBase base (cs ++ [c]) = valueInBase base cs * base + valueInBase base [c] := by
  simp [valueInBase, ofDigits]

theorem valueInBase_digitChar (base d : Nat) (h : d < 16) :
    valueInBase base [d.digitChar] = d := by
  have hdigit : ∀ d < 16, (if d.digitChar.isDigit then d.digitChar.toNat - 48
      else d.digitChar.toLower.toNat - 87) = d := by decide
  rw [valueInBase, List.map_singleton, hdigit d h]
  exact (Nat.add_comm _ _).trans (congrArg (d + ·) (Nat.zero_mul base))

/-- The digits of a number stand for it. -/
theorem valueInBase_toDigits {base : Nat} (hbase : 1 < base) (hsixteen : base ≤ 16) (n : Nat) :
    valueInBase base (Nat.toDigits base n) = n := by
  induction n using Nat.strongRecOn with
  | ind n ih =>
    rw [Nat.toDigits_eq_if hbase]
    split
    case isTrue hlt => exact valueInBase_digitChar base n (by omega)
    case isFalse hle =>
      have hdigit := Nat.mod_lt n (by omega : 0 < base)
      rw [valueInBase_concat, ih (n / base) (Nat.div_lt_self (by omega) hbase),
        valueInBase_digitChar base _ (by omega), Nat.div_add_mod']

end Evaluation

/-! ## In base ten -/

theorem takeDigits_digitChars {cs : List Char} (inside : Bool)
    (h : ∀ c ∈ cs, ∃ d < 10, c = Nat.digitChar d) :
    takeDigits inside cs =
      (cs.map fun c => if c.isDigit then c.toNat - 48 else c.toLower.toNat - 87, []) := by
  have hdigit : ∀ d < 10, digitValue? d.digitChar = some (if d.digitChar.isDigit
      then d.digitChar.toNat - 48 else d.digitChar.toLower.toNat - 87) := by
    decide
  induction cs generalizing inside with
  | nil => rfl
  | cons c cs ih =>
    obtain ⟨⟨d, hd, rfl⟩, hcs⟩ := List.forall_mem_cons.mp h
    simp only [takeDigits, hdigit d hd, ih true hcs, List.map_cons]

theorem readInteger_toString (n : Nat) :
    readInteger? (removeCommas (toString n)) = some (.ofNat n) := by
  have hdigits := mem_toDigits (show 1 < 10 by decide) n
  have hdecimal : ∀ c ∈ Nat.toDigits 10 n, isDecimal c = true := fun c =>
    isDecimal_of_mem_toDigits
  have hdigit : ∀ c ∈ Nat.toDigits 10 n, isDigit c = true := fun c hc =>
    isDigit_of_isDecimal (hdecimal c hc)
  have hcommas : removeCommas (toString n) = String.ofList (Nat.toDigits 10 n) := by
    rw [removeCommas, Nat.toString_eq_repr, Nat.toList_repr]
    congr 1
    refine List.filter_eq_self.mpr fun c hc => decide_eq_true ?_
    rintro rfl
    exact absurd (hdecimal ',' hc) (by decide)
  have hvalue : valueInBase 10 (Nat.toDigits 10 n) = n :=
    valueInBase_toDigits (by decide) (by decide) n
  unfold readInteger?
  rw [hcommas, String.toList_ofList, withoutPadding_of_digits hdigit,
    takeSign_of_digits hdigit]
  dsimp only
  rw [takeDigits_digitChars false hdigits]
  obtain ⟨c, cs, hcons⟩ := List.exists_cons_of_ne_nil (Nat.toDigits_ne_nil (n := n) (b := 10))
  rw [hcons] at hvalue ⊢
  exact congrArg (some <| Int.ofNat ·) hvalue

theorem integerLiteral_toString (n : Nat) (index : Nat) :
    integerLiteral ⟨toString n, index⟩ =
      if inRange (.ofNat n) then .ok (.int (.ofNat n))
      else Attempt.fail ⟨toString n, index⟩ .overflow := by
  rw [integerLiteral, readInteger_toString]

end Calculator
