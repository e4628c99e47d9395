import Calculator.Proofs.Evaluation.Expression

/-!
# Strings in quotes

Every string has a literal between either sort of quotes. Where the lexer takes the next character
along with a backslash, the literal drops the backslash, so that both agree on where it ends.
-/

namespace Calculator

open Grammar Grammar.Reader

/-! ## Escaping -/

/-- A backslash keeps quotes and other backslashes from their meaning. No newline may stay. -/
def escape (quote c : Char) : List Char :=
  if c = '\\' ∨ c = quote then ['\\', c] else if c = '\n' then ['\\', 'n'] else [c]

/-- The literal of a string. -/
def quotation (quote : Char) (s : String) : String :=
  String.ofList (quote :: (s.toList.flatMap (escape quote) ++ [quote]))

/-- Strings go between single or double quotes. -/
def isQuote (c : Char) : Bool := c = '\'' || c = '"'

section

variable {quote : Char} (hquote : isQuote quote = true)

include hquote

theorem quote_cases : quote = '\'' ∨ quote = '"' := by simpa [isQuote] using hquote

/-- The closing quote is found although there may be others before it. -/
theorem readQuoted_escape (cs rest : List Char) :
    readQuoted quote (cs.flatMap (escape quote) ++ quote :: rest) =
      some (cs.flatMap (escape quote) ++ [quote], rest) := by
  have hbackslash : '\\' ≠ quote := by rcases quote_cases hquote with rfl | rfl <;> decide
  have hnewline : quote ≠ '\n' := by rcases quote_cases hquote with rfl | rfl <;> decide
  induction cs with
  | nil => exact readQuoted_quote rest
  | cons c cs ih =>
    rw [List.flatMap_cons, List.append_assoc, escape]
    split
    case isTrue hc =>
      have hc : ¬c = '\n' := by rcases hc with rfl | rfl <;> [decide; exact hnewline]
      simp [readQuoted_escaped hbackslash hc, ih]
    case isFalse hc =>
      obtain ⟨hescape, hother⟩ := not_or.mp hc
      split
      case isTrue =>
        have hn : ¬ 'n' = '\n' := by decide
        simp [readQuoted_escaped hbackslash hn, ih]
      case isFalse hline => simp [readQuoted_other hother hline hescape, ih]

theorem unescapeChars_escape (cs : List Char) :
    Text.unescapeChars (cs.flatMap (escape quote)) = cs := by
  induction cs with
  | nil => rfl
  | cons c cs ih =>
    rw [List.flatMap_cons, escape]
    split
    case isTrue hc =>
      have hescaped : Text.escaped? c = some c := by
        rcases hc with rfl | rfl
        · rfl
        · rcases quote_cases hquote with rfl | rfl <;> rfl
      simp [Text.unescapeChars, hescaped, ih]
    case isFalse hc =>
      split
      case isTrue hline => simp [Text.unescapeChars, Text.escaped?, hline, ih]
      case isFalse =>
        have hescape : c ≠ '\\' := fun heq => hc (.inl heq)
        rw [List.singleton_append, Text.unescapeChars, ih]
        exact fun _ _ heq => absurd heq hescape

end

/-! ## Literals -/

/-- The text is one literal, and it stands for the string. -/
structure Quotes (literal s : String) : Prop where
  lexed : lex literal = ⟨[⟨.string, ⟨literal, 0⟩⟩], none⟩
  value : Evaluation.stringLiteral ⟨literal, 0⟩ = .string s

/-- No other reader that starts with a quote comes before the one of strings. -/
theorem readNext_of_readString {cs read rest : List Char}
    (h : readString cs = some (read, rest)) :
    readNext cs = some (some .string, read, rest) := by
  obtain ⟨c, inside, ds, hc, rfl, -⟩ := readString_eq_some.mp h
  rcases hc with rfl | rfl <;> exact readNext_of_reader 6 rfl (by decide) h

theorem lex_of_readString {literal : String}
    (h : readString literal.toList = some (literal.toList, [])) :
    lex literal = ⟨[⟨.string, ⟨literal, 0⟩⟩], none⟩ := by
  have hlexes : Lexes 0 literal.toList (tokenOf (some .string) literal.toList 0 ++ []) [] :=
    .next (readNext_of_readString h) .done
  rw [lex_eq_iff]
  simpa [tokenOf] using hlexes

section

variable {quote : Char} (hquote : isQuote quote = true) (s : String)

include hquote

theorem quotes_quotation : Quotes (quotation quote s) s := by
  have htext : (quotation quote s).toList =
      quote :: (s.toList.flatMap (escape quote) ++ [quote]) := String.toList_ofList
  constructor
  case lexed =>
    refine lex_of_readString (readString_eq_some.mpr ⟨quote, _, _, ?_, htext, ?_, htext⟩)
    · exact (quote_cases hquote).symm
    · exact readQuoted_escape hquote s.toList []
  case value =>
    rw [Evaluation.stringLiteral, htext, Evaluation.withoutQuotes, List.drop_succ_cons,
      List.drop_zero, List.dropLast_concat, unescapeChars_escape hquote, String.ofList_toList]

/--
A string between quotes is one token, and evaluating it changes nothing. It is written as the
decorator of unnamed formats writes it; the one that is always there writes the string as it is.
-/
theorem evaluate_quotation :
    lex (quotation quote s) = ⟨[⟨.string, ⟨quotation quote s, 0⟩⟩], none⟩ ∧
    ∀ (setting : Setting) (memory : Memory),
      evaluate setting (quotation quote s) memory =
        ((fun text => ⟨[⟨text, .string s, .default⟩], text, .string s⟩) <$>
          setting.decorators.call ⟨quotation quote s, 0⟩ "default" (.string s), memory) ∧
      (setting.decorators.find? "default" = DecoratorTable.builtin.find? "default" →
        evaluate setting (quotation quote s) memory =
          (.ok ⟨[⟨s, .string s, .default⟩], s, .string s⟩, memory)) := by
  have h := quotes_quotation hquote s
  have hliteral : Evaluation.literal .string ⟨quotation quote s, 0⟩ =
      .ok (Outcome.ofValue (.string s)) := congrArg (Except.ok ∘ Outcome.ofValue) h.value
  refine ⟨h.lexed, fun setting memory => ?_⟩
  have hevaluate := Evaluation.evaluate_of_literal h.lexed (by decide) (by decide) rfl hliteral
    setting memory
  refine ⟨hevaluate, fun hdefault => ?_⟩
  rw [hevaluate, Evaluation.call_default hdefault]
  rfl

end

theorem evaluate_quotation_backslashes :
    let s := "\\'\n\"// "
    isQuote '\'' = true ∧ quotation '\'' s = "'\\\\\\'\\n\"// '" ∧
      evaluate ⟨50, .builtin, .builtin, none, .still⟩ (quotation '\'' s) .empty =
        (.ok ⟨[⟨s, .string s, .default⟩], s, .string s⟩, .empty) := by
  intro s
  obtain ⟨-, hevaluate⟩ := evaluate_quotation (show isQuote '\'' = true by decide) s
  exact ⟨by decide, by decide +kernel, (hevaluate _ _).2 rfl⟩

end Calculator
