import Calculator.Proofs.Grammar.Positions
import Calculator.Proofs.Number.Reading

/-!
# Integers in a source

Without its commas, a token of the kind of integers is nothing but digits, so it is read as a
number.
-/

namespace Calculator.Grammar

open Calculator.Text Calculator.Number Reader

variable {cs read rest left : List Char} {index : Nat} {tokens : List Token} {source : String}
  {tree : Tree}

theorem decimal_of_takeGroups (cs : List Char) :
    ∀ c ∈ (takeGroups cs).1, c = ',' ∨ isDecimal c := by
  fun_induction takeGroups cs with
  | case1 x y z rest hdigits groups left heq ih =>
    simp only [Bool.and_eq_true] at hdigits
    rw [heq] at ih
    simp only [List.forall_mem_cons, true_or, true_and]
    exact ⟨.inr hdigits.1.1.1, .inr hdigits.1.1.2, .inr hdigits.1.2, ih⟩
  | case2 | case3 => exact List.forall_mem_nil _

theorem isSome_readInteger_of_readWhole (h : readWhole cs = some (read, rest)) :
    (readInteger? (removeCommas (String.ofList read))).isSome := by
  obtain ⟨digits, middle, hdigits, rfl, -⟩ := readWhole_eq_some.mp h
  obtain ⟨hne, -, hdecimal, -⟩ := many_eq_some.mp hdigits
  rw [removeCommas, String.toList_ofList]
  apply isSome_readInteger
  · obtain ⟨c, others, rfl⟩ := List.exists_cons_of_ne_nil hne
    have hcomma : c ≠ ',' := by
      rintro rfl
      exact absurd (hdecimal ',' List.mem_cons_self) (by decide)
    simp [hcomma]
  · intro c hc
    obtain ⟨hc, hcomma⟩ := List.mem_filter.mp hc
    rcases List.mem_append.mp hc with hc | hc
    · exact hdecimal c hc
    · exact (decimal_of_takeGroups middle c hc).resolve_left (by simpa using hcomma)

/-- Each token is what a reader of its kind has read. -/
theorem Lexes.readNext_of_mem (h : Lexes index cs tokens left) : ∀ token ∈ tokens, ∃ cs rest,
    readNext cs = some (some token.kind, token.site.text.toList, rest) := by
  induction h with
  | done => exact List.forall_mem_nil _
  | @next index cs kind read rest tokens left hread _ ih =>
    refine List.forall_mem_append.mpr ⟨?_, ih⟩
    cases kind with
    | none => exact List.forall_mem_nil _
    | some kind =>
      refine List.forall_mem_singleton.mpr ⟨cs, rest, ?_⟩
      rw [hread, String.toList_ofList]

theorem isSome_readInteger_of_parse {site : Site} (h : parse source = .ok tree)
    (hleaf : .leaf .int site ∈ tree.subtrees) :
    (readInteger? (removeCommas site.text)).isSome := by
  have htoken := token_of_mem_subtrees hleaf
  have hlexes := lex_eq_iff.mp (parse_positions h).2.1
  obtain ⟨cs, rest, hread⟩ := hlexes.readNext_of_mem _ htoken
  obtain ⟨reader, hmem, hread⟩ := readNext_reads hread
  have hmem : reader ∈ [readWhole] := hmem
  rw [List.mem_singleton.mp hmem] at hread
  simpa using isSome_readInteger_of_readWhole hread

end Calculator.Grammar
