import Calculator.Decorator.Builtins
import Calculator.Function.Builtins
import Calculator.Proofs.Arithmetic.Range
import Calculator.Proofs.Evaluation.Expression
import Calculator.Proofs.Number.Digits

/-!
# Integers in other bases

What the decorators of bases write is a literal, and it comes to the integer again. Negative
integers are written as the words that they are, and the literal wraps them back.
-/

namespace Calculator

open Grammar Grammar.Reader Number

/-! ## The bases -/

/-- The bases that integers are written in beside the usual one. -/
inductive Radix where
  | hex | oct | bin

namespace Radix

/-- The decorator. -/
def name : Radix → String
  | hex => "hex"
  | oct => "oct"
  | bin => "bin"

/-- The literal. -/
def kind : Radix → Terminal
  | hex => .hex
  | oct => .oct
  | bin => .bin

def base : Radix → Nat
  | hex => 16
  | oct => 8
  | bin => 2

/-- What stands before the digits. -/
def start : Radix → String
  | hex => "0x"
  | oct => "0o"
  | bin => "0b"

def letter : Radix → Char
  | hex => 'x'
  | oct => 'o'
  | bin => 'b'

def isDigit : Radix → Char → Bool
  | hex => isHexDigit
  | oct => isOctalDigit
  | bin => isBinaryDigit

/-- How an integer is written. -/
def text (radix : Radix) (n : Int) : String := radix.start ++ inBase radix.base (wordOf n)

variable (radix : Radix) (n : Int)

theorem one_lt_base : 1 < radix.base := by cases radix <;> decide

theorem base_le : radix.base ≤ 16 := by cases radix <;> decide

theorem isDigit_digitChar : ∀ d < radix.base, radix.isDigit d.digitChar = true := by
  cases radix <;> decide

theorem isDigit_of_mem : ∀ c ∈ Nat.toDigits radix.base (wordOf n), radix.isDigit c = true := by
  intro c hc
  obtain ⟨d, hd, rfl⟩ := mem_toDigits radix.one_lt_base (wordOf n) c hc
  exact radix.isDigit_digitChar d hd

theorem toList_text : (radix.text n).toList =
    '0' :: radix.letter :: Nat.toDigits radix.base (wordOf n) := by
  have hstart : radix.start.toList = ['0', radix.letter] := by cases radix <;> rfl
  rw [text, String.toList_append, hstart, inBase, String.toList_ofList]
  rfl

theorem call_builtin (site : Site) :
    DecoratorTable.builtin.call site radix.name (.int n) = .ok (radix.text n) := by
  cases radix <;> rfl

/-! ## The literal -/

theorem many_isDigit : many radix.isDigit (Nat.toDigits radix.base (wordOf n)) =
    some (Nat.toDigits radix.base (wordOf n), []) :=
  many_eq_some.mpr ⟨Nat.toDigits_ne_nil, List.append_nil _, radix.isDigit_of_mem n, by simp⟩

theorem readRadix_text : readRadix [radix.letter, radix.letter.toUpper] radix.isDigit
    (radix.text n).toList = some ((radix.text n).toList, []) := by
  rw [toList_text]
  simp [readRadix, andThen, oneOf, radix.many_isDigit n]

theorem readRadix_of_other (p : Char → Bool) {letters : List Char} (h : radix.letter ∉ letters) :
    readRadix letters p (radix.text n).toList = none := by
  rw [toList_text]
  exact readRadix_of_not_mem h p _

theorem readNext_text :
    readNext (radix.text n).toList = some (some radix.kind, (radix.text n).toList, []) := by
  have hread := radix.readRadix_text n
  have hother := radix.readRadix_of_other n
  cases radix with
  | hex =>
    have hread : readRadix ['x', 'X'] isHexDigit _ = _ := hread
    simp only [readNext, readers, List.cons_append, List.findSome?_cons, hread]
    rfl
  | oct =>
    have hread : readRadix ['o', 'O'] isOctalDigit _ = _ := hread
    have hhex := hother isHexDigit (by decide : 'o' ∉ ['x', 'X'])
    have hbin := hother isBinaryDigit (by decide : 'o' ∉ ['b', 'B'])
    simp only [readNext, readers, List.cons_append, List.findSome?_cons, orElse, hhex, hbin, hread]
    rfl
  | bin =>
    have hread : readRadix ['b', 'B'] isBinaryDigit _ = _ := hread
    have hhex := hother isHexDigit (by decide : 'b' ∉ ['x', 'X'])
    simp only [readNext, readers, List.cons_append, List.findSome?_cons, hhex, hread]
    rfl

theorem lex_text : lex (radix.text n) = ⟨[⟨radix.kind, ⟨radix.text n, 0⟩⟩], none⟩ := by
  have h : Lexes 0 (radix.text n).toList (tokenOf radix.kind (radix.text n).toList 0 ++ []) [] :=
    .next (radix.readNext_text n) .done
  rw [lex_eq_iff]
  simpa [tokenOf] using h

variable {n}

theorem wordOf_eq (h : inRange n) :
    (wordOf n : Int) = if n < 0 then n + 0x10000000000000000 else n := by
  rw [inRange_iff] at h
  unfold wordOf wordSize
  split <;> omega

/-- Words with the highest bit come to negative integers. -/
theorem radixLiteral_text (h : inRange n) (index : Nat) :
    Evaluation.radixLiteral radix.base ⟨radix.text n, index⟩ = .ok (.int n) := by
  have hletter : radix.letter.isAlpha = true := by cases radix <;> decide
  have hvalue : Evaluation.valueInBase radix.base (Evaluation.radixDigits
      (radix.text n).toList) = wordOf n := by
    rw [toList_text, Evaluation.radixDigits, if_pos hletter]
    exact Evaluation.valueInBase_toDigits radix.one_lt_base radix.base_le (wordOf n)
  have hword := wordOf_eq h
  rw [inRange_iff] at h
  unfold Evaluation.radixLiteral
  dsimp only
  rw [hvalue, if_neg (by unfold wordSize; split at hword <;> omega)]
  unfold intMax wordSize
  split at hword
  case isTrue hnegative =>
    rw [if_pos (by omega), hword]
    exact congrArg (Except.ok ∘ Value.int) (Int.add_sub_cancel _ _)
  case isFalse hpositive => rw [if_neg (by omega), hword]

theorem literal_text (h : inRange n) :
    Evaluation.literal radix.kind ⟨radix.text n, 0⟩ = .ok (Outcome.ofValue (.int n)) := by
  have hliteral := radix.radixLiteral_text h 0
  cases radix <;> exact congrArg (Outcome.ofValue <$> ·) hliteral

end Radix

/-! ## Around once -/

/--
What a decorator of a base writes for an integer is one literal, and it is the integer. Decorators
may have been added, as long as there is still one that writes the result of a line; the one that is
always there does.
-/
theorem evaluate_radix {n : Int} (h : inRange n) (radix : Radix) (site : Site) : ∃ text,
    DecoratorTable.builtin.call site radix.name (.int n) = .ok text ∧
      lex text = ⟨[⟨radix.kind, ⟨text, 0⟩⟩], none⟩ ∧
      (∀ (setting : Setting) (memory : Memory) (written : String),
        setting.decorators.call ⟨text, 0⟩ "default" (.int n) = .ok written →
          evaluate setting text memory =
            (.ok ⟨[⟨written, .int n, .default⟩], written, .int n⟩, memory)) ∧
      DecoratorTable.builtin.call ⟨text, 0⟩ "default" (.int n) = .ok (toString n) := by
  have hlex := radix.lex_text n
  refine ⟨radix.text n, radix.call_builtin n site, hlex, ?_, rfl⟩
  intro setting memory written hwritten
  rw [Evaluation.evaluate_of_literal hlex (by cases radix <;> decide) (by cases radix <;> decide)
    rfl (radix.literal_text h), hwritten]
  rfl

theorem evaluate_radix_minus : ∃ text,
    DecoratorTable.builtin.call ⟨"x", 0⟩ "oct" (.int (-1)) = .ok text ∧
      text = "0o1777777777777777777777" ∧ lex text = ⟨[⟨.oct, ⟨text, 0⟩⟩], none⟩ ∧
      evaluate ⟨50, .builtin, .builtin, none, .still⟩ text .empty =
        (.ok ⟨[⟨"-1", .int (-1), .default⟩], "-1", .int (-1)⟩, .empty) := by
  obtain ⟨text, hcall, hlex, hevaluate, hdefault⟩ :=
    evaluate_radix (n := -1) (by decide) .oct ⟨"x", 0⟩
  refine ⟨text, hcall, ?_, hlex, hevaluate _ _ _ hdefault⟩
  have hwritten := Except.ok.inj (hcall.symm.trans (Radix.oct.call_builtin (-1) ⟨"x", 0⟩))
  rw [hwritten]
  decide +kernel

end Calculator
