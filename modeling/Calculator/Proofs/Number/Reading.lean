import Mathlib.Data.List.TakeWhile
import Calculator.Number.Reading

/-!
# Reading digits

No digit is a blank or a sign. So a text of digits is read up to the first one that stands in no
decimal place, and it is a number when there is none.
-/

namespace Calculator.Number

open Calculator.Text

/-! ## Single digits -/

theorem isDigit_of_isDecimal {c : Char} (h : isDecimal c) : isDigit c := by
  rw [isDigit, h, Bool.true_or]

theorem not_blank_of_zeros : ∀ z ∈ zeros, ∀ d < 10, z + d < 0x80 ∨
    isBlank (Char.ofNat (z + d)) = false := by
  decide +kernel

theorem not_blank_of_looseDigits : ∀ range ∈ looseDigits, ∀ d ≤ range.2 - range.1,
    isBlank (Char.ofNat (range.1 + d)) = false := by
  decide +kernel

theorem not_isBlank_of_isDecimal {c : Char} (h : isDecimal c) : isBlank c = false := by
  unfold isDecimal digitValue? at h
  split at h
  case isTrue =>
    split at h
    case isTrue hdigit =>
      have hlow : 48 ≤ c.toNat := hdigit.1
      have hhigh : c.toNat ≤ 57 := hdigit.2
      simp only [isBlank]
      simp
      omega
    case isFalse => cases h
  case isFalse hbeyond =>
    rw [Option.isSome_map, List.find?_isSome] at h
    obtain ⟨z, hz, hrange⟩ := h
    simp only [Bool.and_eq_true, decide_eq_true_eq] at hrange
    have hblank := not_blank_of_zeros z hz (c.toNat - z) (by omega)
    rw [Nat.add_sub_cancel' hrange.1, Char.ofNat_toNat] at hblank
    exact hblank.resolve_left hbeyond

theorem not_isBlank_of_isDigit {c : Char} (h : isDigit c) : isBlank c = false := by
  rcases Bool.or_eq_true_iff.mp h with hdecimal | hloose
  · exact not_isBlank_of_isDecimal hdecimal
  · obtain ⟨range, hmem, hrange⟩ := List.any_eq_true.mp hloose
    simp only [Bool.and_eq_true, decide_eq_true_eq] at hrange
    have hblank := not_blank_of_looseDigits range hmem (c.toNat - range.1) (by omega)
    rwa [Nat.add_sub_cancel' hrange.1, Char.ofNat_toNat] at hblank

/-! ## Texts of digits -/

section

variable {cs : List Char}

theorem takeSign_of_digits (h : ∀ c ∈ cs, isDigit c) : takeSign cs = (false, cs) := by
  unfold takeSign
  split
  · exact absurd (h '-' List.mem_cons_self) (by decide)
  · exact absurd (h '+' List.mem_cons_self) (by decide)
  · rfl

theorem dropWhile_isPadding (h : ∀ c ∈ cs, isDigit c) : cs.dropWhile isPadding = cs := by
  cases cs with
  | nil => rfl
  | cons c cs =>
    have hblank := not_isBlank_of_isDigit (h c List.mem_cons_self)
    exact List.dropWhile_cons_of_neg (by simp [isPadding, hblank])

theorem withoutPadding_of_digits (h : ∀ c ∈ cs, isDigit c) : withoutPadding cs = cs := by
  rw [withoutPadding, dropWhile_isPadding h,
    dropWhile_isPadding fun c hc => h c (List.mem_reverse.mp hc), List.reverse_reverse]

/-- Nothing is left out, as there are no underscores. -/
theorem takeDigits_of_digits (inside : Bool) (h : ∀ c ∈ cs, isDigit c) :
    (takeDigits inside cs).1.length = (cs.takeWhile isDecimal).length ∧
      (takeDigits inside cs).2 = cs.dropWhile isDecimal := by
  induction cs generalizing inside with
  | nil => exact ⟨rfl, rfl⟩
  | cons c cs ih =>
    obtain ⟨hc, hcs⟩ := List.forall_mem_cons.mp h
    rw [List.takeWhile_cons, List.dropWhile_cons, takeDigits, isDecimal]
    cases hvalue : digitValue? c with
    | some d =>
      obtain ⟨hlength, hrest⟩ := ih true hcs
      exact ⟨congrArg Nat.succ hlength, hrest⟩
    | none =>
      have hunderscore : c ≠ '_' := by
        rintro rfl
        exact absurd hc (by decide)
      simp [hunderscore]

theorem isSome_readInteger_iff (hne : cs ≠ []) (h : ∀ c ∈ cs, isDigit c) :
    (readInteger? (String.ofList cs)).isSome ↔ ∀ c ∈ cs, isDecimal c := by
  obtain ⟨hlength, hrest⟩ := takeDigits_of_digits false h
  rw [← List.dropWhile_eq_nil_iff, ← hrest]
  unfold readInteger?
  simp only [String.toList_ofList, withoutPadding_of_digits h, takeSign_of_digits h]
  rcases hdigits : takeDigits false cs with ⟨_ | ⟨d, ds⟩, _ | ⟨c, rest⟩⟩
  case nil.nil =>
    rw [hdigits] at hlength hrest
    have hall := List.takeWhile_append_dropWhile (p := isDecimal) (l := cs)
    rw [← hrest, List.length_eq_zero_iff.mp hlength.symm] at hall
    exact absurd hall.symm hne
  all_goals simp

theorem isSome_readInteger (hne : cs ≠ []) (h : ∀ c ∈ cs, isDecimal c) :
    (readInteger? (String.ofList cs)).isSome :=
  (isSome_readInteger_iff hne fun c hc => isDigit_of_isDecimal (h c hc)).mpr h

/-- The digits are counted up to the first one that stands in no decimal place. -/
theorem overlong?_eq_none_iff (h : ∀ c ∈ cs, isDigit c) :
    overlong? (String.ofList cs) = none ↔ (cs.takeWhile isDecimal).length ≤ digitLimit := by
  obtain ⟨hlength, hrest⟩ := takeDigits_of_digits false h
  have hunderscore : (cs.dropWhile isDecimal).head? ≠ some '_' := fun hhead =>
    absurd (h '_' ((List.dropWhile_sublist _).mem (List.mem_of_head? hhead))) (by decide)
  unfold overlong?
  simp only [String.toList_ofList, withoutPadding_of_digits h, takeSign_of_digits h]
  rw [hlength, hrest]
  simp [hunderscore]

end

end Calculator.Number
