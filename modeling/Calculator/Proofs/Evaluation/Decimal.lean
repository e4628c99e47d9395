import Calculator.Decorator.Builtins
import Calculator.Function.Builtins
import Calculator.Proofs.Arithmetic.Range
import Calculator.Proofs.Evaluation.Expression
import Calculator.Proofs.Grammar.Whole

/-!
# Decimal literals

The digits of a number come to the number, with or without commas between groups of three. From one
number on they come to an overflow.
-/

namespace Calculator

open Evaluation Grammar Number

/-! ## The number of the digits -/

theorem filter_digits {n : Nat} {digits : List Char} (h : Digits n digits) :
    digits.filter (· ≠ ',') = Nat.toDigits 10 n := by
  have hcomma : ∀ c ∈ Nat.toDigits 10 n, c ≠ ',' := by
    rintro c hc rfl
    exact absurd (isDecimal_of_mem_toDigits hc) (by decide)
  cases h with
  | plain => exact List.filter_eq_self.mpr fun c hc => decide_eq_true (hcomma c hc)
  | grouped => exact filter_grouped hcomma

theorem integerLiteral_of_digits {n : Nat} {text : String} (h : Digits n text.toList)
    (index : Nat) : integerLiteral ⟨text, index⟩ =
      if inRange n then .ok (.int n) else Attempt.fail ⟨text, index⟩ .overflow := by
  have hplain : Digits n (toString n).toList := by
    rw [Nat.toString_eq_repr, Nat.toList_repr]
    exact .plain
  have hcommas : removeCommas text = removeCommas (toString n) := by
    rw [removeCommas, removeCommas, filter_digits h, filter_digits hplain]
  rw [integerLiteral, hcommas, readInteger_toString]
  rfl

theorem inRange_natCast {n : Nat} : inRange n = true ↔ (n : Int) ≤ intMax := by
  rw [inRange_iff, intMax]
  omega

/-! ## Around once -/

/--
The digits of a number are one token, and what follows them is read as it is alone. The token comes
to the number, or to an overflow if the number is too large. So does a source of the digits, however
the default decorator writes the number.
-/
theorem evaluate_digits {n : Nat} {text : String} (h : Digits n text.toList) :
    (∀ after : String, Follows after.toList →
      lex (text ++ after) = ((lex after).shift text.length).cons ⟨.int, text, 0⟩) ∧
    lex text = ⟨[⟨.int, ⟨text, 0⟩⟩], none⟩ ∧
    (∀ index, literal .int ⟨text, index⟩ =
      if (n : Int) ≤ intMax then .ok (Outcome.ofValue (.int n))
      else .error (.located ⟨text, index⟩ .overflow)) ∧
    ∀ (setting : Setting) (memory : Memory),
      ((n : Int) ≤ intMax →
        evaluate setting text memory =
          ((fun written => ⟨[⟨written, .int n, .default⟩], written, .int n⟩) <$>
            setting.decorators.call ⟨text, 0⟩ "default" (.int n), memory) ∧
        (setting.decorators.find? "default" = DecoratorTable.builtin.find? "default" →
          evaluate setting text memory =
            (.ok ⟨[⟨toString n, .int n, .default⟩], toString n, .int n⟩, memory))) ∧
      (intMax < n → evaluate setting text memory =
        (.error (.located ⟨text, 0⟩ .overflow), memory)) := by
  have hfollows : ∀ after : String, Follows after.toList →
      lex (text ++ after) = ((lex after).shift text.length).cons ⟨.int, text, 0⟩ :=
    fun after hafter => lex_append (readNext_of_digits h hafter.ends)
  have hlex : lex text = ⟨[⟨.int, ⟨text, 0⟩⟩], none⟩ := by
    have halone := hfollows "" .nil
    rwa [String.append_empty] at halone
  have hliteral : ∀ index, literal .int ⟨text, index⟩ =
      if (n : Int) ≤ intMax then .ok (Outcome.ofValue (.int n))
      else .error (.located ⟨text, index⟩ .overflow) := by
    intro index
    rw [literal, integerLiteral_of_digits h, if_congr inRange_natCast rfl rfl]
    split <;> rfl
  refine ⟨hfollows, hlex, hliteral, fun setting memory => ⟨fun hle => ?_, fun hlt => ?_⟩⟩
  · have hevaluate := evaluate_of_literal hlex (by decide) (by decide) rfl
      ((hliteral 0).trans (if_pos hle)) setting memory
    refine ⟨hevaluate, fun hdefault => ?_⟩
    rw [hevaluate, call_default hdefault]
    rfl
  · exact evaluate_of_refused hlex (by decide) (by decide)
      ((hliteral 0).trans (if_neg (Int.not_le.mpr hlt))) setting memory

/-- Two groups in front of an item that has three digits too. -/
theorem evaluate_digits_grouped :
    Digits 1234567 "1,234,567".toList ∧ Follows ", 890]".toList ∧
    lex "1,234,567, 890]" = ((lex ", 890]").shift 9).cons ⟨.int, "1,234,567", 0⟩ ∧
    evaluate ⟨50, .builtin, .builtin, none, .still⟩ "1,234,567" .empty =
      (.ok ⟨[⟨"1234567", .int 1234567, .default⟩], "1234567", .int 1234567⟩, .empty) := by
  have hdigits : Digits 1234567 "1,234,567".toList := .grouped
  have hfollows : Follows ", 890]".toList := .comma (by decide) _
  obtain ⟨hlex, -, -, hevaluate⟩ := evaluate_digits hdigits
  exact ⟨hdigits, hfollows, hlex _ hfollows, ((hevaluate _ _).1 (by decide)).2 rfl⟩

end Calculator
