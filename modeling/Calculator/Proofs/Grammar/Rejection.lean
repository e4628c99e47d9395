import Calculator.Proofs.Grammar.Acceptance

/-!
# The place of a syntax error

A line is rejected at its first token that no line goes on with. So is a script, since the lines
before that token are accepted. The lexer is stuck at the first character that no reader starts
with.
-/

namespace Calculator.Grammar

open Sketch

variable {tokens body rest before : List Token} {newline token : Token} {line : Line}
  {source : String} {index fuel : Nat} {cs : List Char}

/-- The tokens can go on to a script. -/
def Viable (tokens : List Token) : Prop := ∃ more lines, Script (tokens ++ more) lines

/-! ## Tokens that can go on -/

theorem viable_append_newline_iff (hbody : NoNewline body) (hnewline : newline.kind = .newline) :
    Viable (body ++ newline :: rest) ↔
      (∃ children, Line.Derives ⟨body, some newline⟩ children) ∧ Viable rest := by
  constructor
  · rintro ⟨more, lines, h⟩
    rw [List.append_assoc, List.cons_append, script_append_newline_iff hbody hnewline] at h
    obtain ⟨children, others, -, hline, hrest⟩ := h
    exact ⟨⟨children, hline⟩, more, others, hrest⟩
  · rintro ⟨⟨children, hline⟩, more, others, hrest⟩
    refine ⟨more, .node .line children :: others, ?_⟩
    rw [List.append_assoc, List.cons_append, script_append_newline_iff hbody hnewline]
    exact ⟨children, others, rfl, hline, hrest⟩

theorem Line.Derives.body_derives {children : List Sketch} (h : line.Derives children)
    (hne : line.body ≠ []) :
    ∃ parts, Grammar.Derives Grammatical [.node .lineBody] line.body parts [] := by
  obtain ⟨parts, -, ⟨hempty, -⟩ | hder⟩ := h
  · exact absurd hempty hne
  · exact ⟨parts, hder⟩

/-- Without a newline, tokens that can go on to a script can go on to a line. -/
theorem viable_iff_begins (hne : body ≠ []) (hbody : NoNewline body) :
    Viable body ↔ Begins [[.node .lineBody]] body := by
  constructor
  · rintro ⟨more, lines, h⟩
    -- The line ends at the first newline of the tokens that are added.
    have hline : ∃ others newline? children, NoNewline (body ++ others) ∧
        Line.Derives ⟨body ++ others, newline?⟩ children := by
      rcases NoNewline.or_first more with hmore | ⟨others, newline, last, rfl, hothers, hnewline⟩
      · have hall : NoNewline (body ++ more) := List.forall_mem_append.mpr ⟨hbody, hmore⟩
        obtain ⟨children, -, hline⟩ := (script_iff_of_noNewline (by simp [hne]) hall).mp h
        exact ⟨more, none, children, hall, hline⟩
      · have hall : NoNewline (body ++ others) := List.forall_mem_append.mpr ⟨hbody, hothers⟩
        rw [← List.append_assoc] at h
        obtain ⟨children, -, -, hline, -⟩ := (script_append_newline_iff hall hnewline).mp h
        exact ⟨others, some newline, children, hall, hline⟩
    obtain ⟨others, _, children, -, hline⟩ := hline
    obtain ⟨parts, hder⟩ := hline.body_derives (by simp [hne])
    exact ⟨others, parts, anyOf_singleton.mpr hder⟩
  · rintro ⟨more, parts, h⟩
    exact ⟨more, _, .last (anyOf_singleton.mp h)⟩

theorem viable_nil : Viable [] := ⟨[], [], .nil⟩

theorem viable_of_nil_or_begins (hbody : NoNewline body)
    (h : body = [] ∨ Begins [[.node .lineBody]] body) : Viable body := by
  by_cases hne : body = []
  · exact hne ▸ viable_nil
  · exact (viable_iff_begins hne hbody).mpr (h.resolve_left hne)

/-! ## Rejected lines -/

/-- Where the reading of a line has come to. -/
theorem Line.read_eq_error {rejection : Rejection} (h : line.read = .error rejection) :
    line.body ≠ [] ∧ (∀ parts, ¬ Grammar.Derives Grammatical [.node .lineBody] line.body parts []) ∧
      ∃ before after, line.body = before ++ after ∧
        (before = [] ∨ Begins [[.node .lineBody]] before) ∧
        (∀ token later, after = token :: later → ¬ Begins [[.node .lineBody]] (before ++ [token])) ∧
        rejection = match after.head?.or line.newline with
          | some token => .token token
          | none => .unfinished := by
  unfold read at h
  split at h
  case isTrue => cases h
  case isFalse hne =>
    dsimp only at h
    split at h
    case h_1 => cases h
    case h_2 hfind =>
      obtain ⟨before, after, hbody, hreach, hbegins⟩ := (top_lineBody line.body).reached
      have hlength : line.body.length - ((Chart.ofTokens line.body).top .lineBody).reach =
          before.length := by
        rw [hreach, hbody, List.length_append, Nat.add_sub_cancel]
      have htoken : line.body[before.length]? = after.head? := by
        rw [hbody, List.getElem?_append_right (Nat.le_refl _), Nat.sub_self, List.head?_eq_getElem?]
      refine ⟨fun hempty => hne (List.isEmpty_iff.mpr hempty), fun parts => find?_eq_none hfind,
        before, after, hbody, hbegins, ?_, ?_⟩
      · rintro token later rfl hmore
        have hlater : line.body = (before ++ [token]) ++ later := by simp [hbody]
        have hfarthest := (top_lineBody line.body).farthest hlater hmore
        rw [hreach, List.length_cons] at hfarthest
        omega
      · rw [hlength, htoken] at h
        split at h <;> cases h <;> simp [*]

theorem Line.read_eq_token {newline? : Option Token} (hbody : NoNewline body)
    (h : Line.read ⟨body, newline?⟩ = .error (.token token)) :
    (∃ before after, body = before ++ token :: after ∧ Viable before ∧
      ¬ Viable (before ++ [token])) ∨ (newline? = some token ∧ Viable body) := by
  obtain ⟨-, -, before, after, rfl, hbegins, hlater, hrejection⟩ := read_eq_error h
  obtain ⟨hbefore, hafter⟩ := List.forall_mem_append.mp hbody
  have hviable := viable_of_nil_or_begins hbefore hbegins
  cases after with
  | nil =>
    cases newline? with
    | none => cases hrejection
    | some newline =>
      cases hrejection
      exact .inr ⟨rfl, by rwa [List.append_nil]⟩
  | cons first after =>
    cases hrejection
    have htoken : NoNewline (before ++ [token]) :=
      List.forall_mem_append.mpr ⟨hbefore, List.forall_mem_singleton.mpr
        (hafter token List.mem_cons_self)⟩
    exact .inl ⟨before, after, rfl, hviable, fun hmore =>
      hlater token after rfl ((viable_iff_begins (by simp) htoken).mp hmore)⟩

theorem Line.read_eq_unfinished {newline? : Option Token} (hbody : NoNewline body)
    (h : Line.read ⟨body, newline?⟩ = .error .unfinished) : newline? = none ∧ Viable body := by
  obtain ⟨-, -, before, after, rfl, hbegins, -, hrejection⟩ := read_eq_error h
  cases after with
  | nil =>
    cases newline? with
    | none =>
      rw [List.append_nil] at hbody ⊢
      exact ⟨rfl, viable_of_nil_or_begins hbody hbegins⟩
    | some newline => cases hrejection
  | cons first after => cases hrejection

/-! ## Rejected tokens -/

/-- The first rejected line. The lines before it do not matter for what can go on. -/
theorem readTokens_eq_error {rejection : Rejection} (h : readTokens tokens = .error rejection) :
    ∃ before body newline? rest, tokens = before ++ (body ++ (newline?.toList ++ rest)) ∧
      NoNewline body ∧ (∀ newline ∈ newline?, newline.kind = .newline) ∧
      (newline? = none → rest = []) ∧ Line.read ⟨body, newline?⟩ = .error rejection ∧
      ∀ more, Viable (before ++ more) ↔ Viable more := by
  induction tokens using Line.induction with
  | hnil => cases h
  | hlast body hne hbody =>
    rw [readTokens_of_noNewline hne hbody] at h
    cases hread : Line.read ⟨body, none⟩ with
    | ok => simp [hread, bind, Except.bind, pure, Except.pure] at h
    | error =>
      rw [hread] at h
      cases h
      exact ⟨[], body, none, [], by simp, hbody, nofun, fun _ => rfl, hread, fun _ => .rfl⟩
  | hline body newline rest hbody hnewline ih =>
    rw [readTokens_append_newline hbody hnewline] at h
    cases hread : Line.read ⟨body, some newline⟩ with
    | error =>
      rw [hread] at h
      cases h
      exact ⟨[], body, some newline, rest, rfl, hbody, by simpa using hnewline, nofun, hread,
        fun _ => .rfl⟩
    | ok children =>
      have hline := Line.derives_of_read hread
      cases hothers : readTokens rest with
      | ok => simp [hread, hothers, bind, Except.bind, pure, Except.pure] at h
      | error =>
        rw [hread, hothers] at h
        cases h
        obtain ⟨before, other, newline?, rest, rfl, hother, hmark, hend, hrejected, hviable⟩ :=
          ih hothers
        refine ⟨body ++ newline :: before, other, newline?, rest, by simp, hother, hmark, hend,
          hrejected, fun more => ?_⟩
        rw [List.append_assoc, List.cons_append, viable_append_newline_iff hbody hnewline, hviable]
        exact and_iff_right ⟨children, hline⟩

theorem readTokens_eq_token (h : readTokens tokens = .error (.token token)) :
    ∃ before after, tokens = before ++ token :: after ∧ Viable before ∧
      ¬ Viable (before ++ [token]) := by
  obtain ⟨before, body, newline?, rest, rfl, hbody, hmark, -, hread, hviable⟩ :=
    readTokens_eq_error h
  rcases Line.read_eq_token hbody hread with
    ⟨start, after, rfl, hstart, hmore⟩ | ⟨rfl, hbegun⟩
  · refine ⟨before ++ start, after ++ (newline?.toList ++ rest), by simp, ?_, ?_⟩
    · exact (hviable _).mpr hstart
    · rwa [List.append_assoc, hviable]
  · refine ⟨before ++ body, rest, by simp, (hviable _).mpr hbegun, ?_⟩
    rw [List.append_assoc, hviable]
    -- With its newline, the line would have been read.
    intro hmore
    obtain ⟨⟨children, hline⟩, -⟩ := (viable_append_newline_iff hbody (hmark token rfl)).mp hmore
    obtain ⟨_, hother⟩ := Line.read_of_derives hline
    rw [hread] at hother
    cases hother

theorem readTokens_eq_unfinished (h : readTokens tokens = .error .unfinished) : Viable tokens := by
  obtain ⟨before, body, newline?, rest, rfl, hbody, -, hend, hread, hviable⟩ :=
    readTokens_eq_error h
  obtain ⟨rfl, hbegun⟩ := Line.read_eq_unfinished hbody hread
  rw [hend rfl, hviable]
  simpa using hbegun

/-! ## Characters that start nothing -/

theorem lexes_of_stuck {stuck : Nat} (h : lexFrom fuel index cs = ⟨tokens, some stuck⟩)
    (hfuel : cs.length ≤ fuel) : ∃ c left, Lexes index cs tokens (c :: left) ∧
      readNext (c :: left) = none ∧ stuck + (c :: left).length = index + cs.length := by
  fun_induction lexFrom fuel index cs generalizing tokens with
  | case1 => cases h
  | case2 => simp at hfuel
  | case3 fuel index cs hne hread =>
    cases h
    obtain ⟨c, left, rfl⟩ := List.exists_cons_of_ne_nil hne
    exact ⟨c, left, .done, hread, rfl⟩
  | case4 fuel index cs _ read rest _ hread =>
    rename_i ih
    have hlength := congrArg List.length (sound_readNext hread)
    rw [List.length_append] at hlength
    have hshorter := length_of_readNext hread
    obtain ⟨c, left, hlexes, hnone, hstuck⟩ := ih h (by omega)
    exact ⟨c, left, .next hread hlexes, hnone, by omega⟩
  | case5 fuel index cs _ read rest _ kind hread =>
    rename_i ih
    have hlength := congrArg List.length (sound_readNext hread)
    rw [List.length_append] at hlength
    have hshorter := length_of_readNext hread
    obtain ⟨rfl, hothers⟩ := Lexed.mk.inj h
    obtain ⟨c, left, hlexes, hnone, hstuck⟩ := ih (congrArg (Lexed.mk _) hothers) (by omega)
    exact ⟨c, left, .next hread hlexes, hnone, by omega⟩

theorem lex_stuck (h : lex source = ⟨tokens, some index⟩) : ∃ c left,
    source.toList.drop index = c :: left ∧ Lexes 0 source.toList tokens (c :: left) ∧
      ∀ reader ∈ readers, reader.2 (c :: left) = none := by
  obtain ⟨c, left, hlexes, hnone, hstuck⟩ := lexes_of_stuck h (Nat.le_refl _)
  obtain ⟨before, hbefore⟩ := hlexes.suffix
  refine ⟨c, left, ?_, hlexes, fun reader hreader => ?_⟩
  · have hindex : index = before.length := by
      rw [← hbefore, List.length_append] at hstuck
      omega
    rw [hindex, ← hbefore, List.drop_left]
  · simpa using List.findSome?_eq_none_iff.mp hnone reader hreader

/--
A script that is none is rejected at the first token that cannot come next, at the first character
that starts no token, or at its end.
-/
theorem parse_rejects {failure : Failure} (h : parse source = .error failure) :
    (∃ before token after, (lex source).tokens = before ++ token :: after ∧
      Viable before ∧ ¬ Viable (before ++ [token]) ∧
      failure = .located
        ⟨String.ofList (source.toList.drop token.site.index), token.site.index⟩
        (.grammar ("unexpected " ++ token.kind.name ++ " " ++ Text.quoted token.site.text))) ∨
    (∃ tokens index c left, lex source = ⟨tokens, some index⟩ ∧
      source.toList.drop index = c :: left ∧ Lexes 0 source.toList tokens (c :: left) ∧
      Viable tokens ∧ (∀ reader ∈ readers, reader.2 (c :: left) = none) ∧
      failure = .located ⟨String.ofList (c :: left), index⟩
        (.grammar ("unexpected character " ++ Text.quoted (String.ofList [c])))) ∨
    (∃ tokens, lex source = ⟨tokens, none⟩ ∧ Viable tokens ∧ (¬ ∃ lines, Script tokens lines) ∧
      failure = .located ⟨"", source.length⟩ (.grammar "unexpected end of input")) := by
  rcases hlex : lex source with ⟨tokens, stuck⟩
  rw [parse, hlex] at h
  dsimp only at h
  split at h
  case h_1 token hread =>
    cases h
    obtain ⟨before, after, htokens, hbefore, hmore⟩ := readTokens_eq_token hread
    exact .inl ⟨before, token, after, htokens, hbefore, hmore, rfl⟩
  case h_2 index hread =>
    cases h
    have hviable : Viable tokens := by
      cases hresult : readTokens tokens with
      | ok lines => exact ⟨[], lines, by simpa using script_of_readTokens hresult⟩
      | error rejection =>
        cases rejection with
        | token token => exact absurd hresult (hread token)
        | unfinished => exact readTokens_eq_unfinished hresult
    obtain ⟨c, left, hdrop, hlexes, hreaders⟩ := lex_stuck hlex
    refine .inr (.inl ⟨tokens, index, c, left, rfl, hdrop, hlexes, hviable, hreaders, ?_⟩)
    simp [rejectCharacter, siteFrom, hdrop]
  case h_3 hread =>
    cases h
    refine .inr (.inr ⟨tokens, rfl, readTokens_eq_unfinished hread, ?_, ?_⟩)
    · rintro ⟨lines, hscript⟩
      obtain ⟨others, hother⟩ := readTokens_of_script hscript
      rw [hread] at hother
      cases hother
    · have hdrop : source.toList.drop source.length = [] :=
        List.drop_eq_nil_of_le (Nat.le_of_eq String.length_toList)
      rw [rejectEnd, siteFrom, hdrop, String.ofList_nil]
  case h_4 => cases h

theorem parse_rejects_closing : ∃ failure, parse "2 )" = .error failure ∧
    failure.message = "unexpected rpar ')' at ) (col 2)" ∧
    ∃ before token after, (lex "2 )").tokens = before ++ token :: after ∧
      Viable before ∧ ¬ Viable (before ++ [token]) := by
  have hstuck : (lex "2 )").stuck = none := by decide +kernel
  have hmessage : (parse "2 )").mapError Failure.message =
      .error "unexpected rpar ')' at ) (col 2)" := by decide +kernel
  cases hparse : parse "2 )" with
  | ok tree =>
    rw [hparse] at hmessage
    cases hmessage
  | error failure =>
    rw [hparse] at hmessage
    have hmessage := Except.error.inj hmessage
    refine ⟨failure, rfl, hmessage, ?_⟩
    rcases parse_rejects hparse with ⟨before, token, after, htokens, hbefore, hmore, rfl⟩ |
      ⟨_, _, _, _, hlex, -⟩ | ⟨_, _, -, -, rfl⟩
    · exact ⟨before, token, after, htokens, hbefore, hmore⟩
    · rw [hlex] at hstuck
      cases hstuck
    · exact absurd hmessage (by decide +kernel)

end Calculator.Grammar
