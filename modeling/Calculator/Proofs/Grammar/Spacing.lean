import Calculator.Proofs.Grammar.Joining

/-!
# Blanks between two tokens

A blank is in no piece but quotes, comments, continuations and other blanks. So a text that is read
up to its end by another piece is read in the same way before a blank.
-/

namespace Calculator.Grammar

open Calculator.Text Reader

variable {c : Char} {cs read rest after left more : List Char} {kind other : Option Terminal}
  {reader : Reader} {index : Nat} {tokens : List Token}

/-! ## The next piece before a blank -/

/-- The pieces that a blank can be in. -/
def holdsBlanks : Option Terminal → Bool
  | none | some .string | some .openLiteral | some .openLine => true
  | _ => false

theorem omits_of_mem_readers (hc : c ∈ [' ', '\t']) :
    ∀ r ∈ readers, holdsBlanks r.1 = true ∨ Omits c r.2 := by
  have hgap : c ∈ gaps := List.mem_cons_of_mem _ hc
  have hnone (chars : List Char) (h : (chars.all fun d => !gaps.contains d) = true) :
      Omits c (oneOf chars) := omits_oneOf (not_mem_of_gap hgap h)
  have hblank : c ∉ ['\r'] ∧ c ∉ ['\n'] := by
    simp only [List.mem_cons, List.not_mem_nil, or_false] at hc
    rcases hc with rfl | rfl <;> decide
  have hoperators : ∀ op ∈ operators, (op.2.all fun d => !gaps.contains d) = true := by decide
  simp only [readers, List.cons_append, List.nil_append, List.forall_mem_cons, List.forall_mem_map]
  exact ⟨.inr (omits_readRadix hgap rfl rfl), .inr (omits_readRadix hgap rfl rfl),
    .inr (omits_readOct hgap), .inr (omits_readScientific hgap), .inr (omits_readFloat hgap),
    .inr (omits_readBoolean hgap), .inl rfl, .inr (omits_readWhole hgap), .inl rfl, .inl rfl,
    .inl rfl, .inl rfl,
    .inr ((omits_oneOf hblank.1).optional.andThen (omits_oneOf hblank.2)), .inl rfl,
    .inr (omits_readIdentifier hgap), .inr (hnone _ rfl),
    fun op hop => .inr (omits_exactly (not_mem_of_gap hgap (hoperators op hop)))⟩

/-- A quote starts what is closed or what is open. -/
theorem kind_of_quote (hc : c = '"' ∨ c = '\'') (h : starts kind c = true) :
    kind = some .string ∨ kind = some .openLiteral := by
  rcases hc with rfl | rfl <;> rcases kind with _ | kind
  all_goals first
    | cases h
    | revert h; cases kind <;> decide

theorem kind_of_blank (hc : isInlineBlank c = true) (h : starts kind c = true) : kind = none := by
  simp only [isInlineBlank, Bool.or_eq_true, decide_eq_true_eq] at hc
  rcases hc with (rfl | rfl) | rfl <;> rcases kind with _ | kind
  all_goals first
    | rfl
    | revert h; cases kind <;> decide

/-- What the pieces that a blank can be in start with. -/
theorem cases_of_holdsBlanks (hkind : holdsBlanks kind = true)
    (h : readNext (c :: cs) = some (kind, read, rest)) :
    (c = '"' ∨ c = '\'') ∨ c = '\\' ∨ readComment (c :: cs) = some (read, rest) ∨
      many isInlineBlank (c :: cs) = some (read, rest) := by
  have hstarts := starts_readNext h
  unfold holdsBlanks at hkind
  split at hkind
  case h_1 =>
    obtain ⟨reader, hmem, hread⟩ := readNext_reads h
    have hreader : reader ∈ [readComment, readContinuation, many isInlineBlank] := hmem
    simp only [List.mem_cons, List.not_mem_nil, or_false] at hreader
    rcases hreader with rfl | rfl | rfl
    · exact .inr (.inr (.inl hread))
    · obtain ⟨_, _, _, hbackslash, -⟩ := andThen_eq_some.mp hread
      obtain ⟨_, _, _, hstart, -⟩ := andThen_eq_some.mp hbackslash
      obtain ⟨d, hd, -, hcs⟩ := oneOf_eq_some.mp hstart
      exact .inr (.inl ((List.cons.inj hcs).1.trans (List.mem_singleton.mp hd)))
    · exact .inr (.inr (.inr hread))
  case h_2 => exact .inl (by simpa [starts] using hstarts)
  case h_3 => exact .inl (by simpa [starts] using hstarts)
  case h_4 => exact .inr (.inl (of_decide_eq_true hstarts))
  case h_5 => cases hkind

theorem rest_of_restOfLine (h : restOfLine cs = some (read, rest)) (hnewline : '\n' ∉ cs) :
    rest = [] := by
  rcases optional_eq_some.mp h with h | ⟨hnone, rfl, rfl⟩
  · obtain ⟨-, rfl, -, hhead⟩ := many_eq_some.mp h
    cases rest with
    | nil => rfl
    | cons d rest =>
      have hd := hhead d rfl
      simp only [decide_eq_false_iff_not, Decidable.not_not] at hd
      exact absurd (List.mem_append_right read (hd ▸ List.mem_cons_self)) hnewline
  · cases rest with
    | nil => rfl
    | cons d rest =>
      have hsome : (many (· ≠ '\n') (d :: rest)).isSome = true := by
        rw [isSome_many]
        exact decide_eq_true (List.ne_of_not_mem_cons hnewline).symm
      rw [hnone] at hsome
      cases hsome

theorem rest_of_readOpenLiteral (h : readOpenLiteral cs = some (read, rest))
    (hnewline : '\n' ∉ cs) : rest = [] := by
  obtain ⟨a, middle, b, ha, hb, rfl⟩ := andThen_eq_some.mp h
  obtain ⟨_, -, rfl, rfl⟩ := oneOf_eq_some.mp ha
  exact rest_of_restOfLine hb (List.not_mem_of_not_mem_cons hnewline)

/-- A comment that a longer text starts with. -/
theorem readNext_of_comment {text : List Char} (hc : c ≠ '/') (hnewline : '\n' ∉ cs)
    (hne : cs ≠ []) (h : readComment (cs ++ c :: after) = some (text, left)) :
    readNext cs = some (none, cs, []) := by
  obtain ⟨a, middle, b, ha, -, rfl⟩ := andThen_eq_some.mp h
  obtain ⟨rfl, htext⟩ := exactly_eq_some.mp ha
  obtain ⟨ds, rfl⟩ : ∃ ds, cs = '/' :: '/' :: ds := by
    match cs, htext with
    | [_], htext => exact absurd (List.cons.inj (List.cons.inj htext).2).1 hc
    | _ :: _ :: ds, htext =>
      cases htext
      exact ⟨ds, rfl⟩
  obtain ⟨⟨line, rest⟩, hline⟩ : ∃ line, restOfLine ds = some line := ⟨_, rfl⟩
  obtain rfl := rest_of_restOfLine hline (by simpa using hnewline)
  have hsound := sound_restOfLine hline
  rw [List.append_nil] at hsound
  subst hsound
  exact readNext_of_reader 9 rfl (by decide)
    (andThen_eq_some.mpr ⟨['/', '/'], line, line, rfl, hline, rfl⟩)

/-- A piece that goes on over the end of a text. The text alone is one piece that has no end. -/
theorem open_of_covers (h : readNext cs = some (kind, read, rest))
    (hlonger : readNext (cs ++ c :: after) = some (other, cs ++ c :: more, left))
    (hc : c ∈ [' ', '\t']) :
    rest = [] ∧ (kind = none ∨ kind = some .openLiteral ∨ kind = some .openLine) := by
  have hnewline : '\n' ∉ cs := by
    have hinside := newline_not_mem_readNext hlonger
    rw [List.dropLast_append_of_ne_nil (List.cons_ne_nil c more)] at hinside
    exact fun hmem => hinside (List.mem_append_left _ hmem)
  have hsound := sound_readNext h
  obtain ⟨d, ds, rfl⟩ := List.exists_cons_of_ne_nil (ne_nil_of_readNext h)
  obtain ⟨reader, hmem, hread⟩ := readNext_reads h
  have hholds : holdsBlanks other = true := by
    obtain ⟨r, hr, hread⟩ := readNext_eq_some hlonger
    exact (omits_of_mem_readers hc _ hr).resolve_right fun homits => homits hread (by simp)
  rcases cases_of_holdsBlanks hholds hlonger with hd | rfl | hcomment | hblanks
  -- A closed string ends where it ends in the shorter text.
  · rcases kind_of_quote hd (starts_readNext h) with rfl | rfl
    · obtain rfl : reader = readString := List.mem_singleton.mp hmem
      have hstring := readNext_of_reader 6 rfl (by rcases hd with rfl | rfl <;> decide)
        (stays_readString (c :: after) hread)
      rw [List.cons_append] at hlonger
      cases hlonger.symm.trans hstring
      simp at hsound
    · obtain rfl : reader = readOpenLiteral := List.mem_singleton.mp hmem
      exact ⟨rest_of_readOpenLiteral hread hnewline, .inr (.inl rfl)⟩
  · have hopen : readOpenLine ('\\' :: ds) = some (read, rest) :=
      (readNext_backslash h).resolve_right fun hread =>
        hnewline (hsound ▸ List.mem_append_left rest (newline_mem_of_readContinuation hread))
    refine ⟨rest_of_readOpenLine hopen, ?_⟩
    exact (kind_of_backslash (starts_readNext h)).imp_right .inr
  · have hslash : c ≠ '/' := by
      rintro rfl
      exact absurd hc (by decide)
    have hall := readNext_of_comment hslash hnewline (List.cons_ne_nil _ _) hcomment
    cases hall.symm.trans h
    exact ⟨rfl, .inl rfl⟩
  · have hall : many isInlineBlank (d :: ds) = some (d :: ds, []) :=
      many_eq_some.mpr ⟨List.cons_ne_nil _ _, List.append_nil _, fun e he =>
        (many_eq_some.mp hblanks).2.2.1 e (List.mem_append_left _ he), by simp⟩
    cases (readNext_of_blanks hall).symm.trans h
    exact ⟨rfl, .inl rfl⟩

theorem readNext_of_bareOctal (h : isBareOctal cs = true) (hc : c ∈ [' ', '\t'])
    (after : List Char) : readNext (cs ++ c :: after) = some (some .oct, cs, c :: after) := by
  obtain ⟨d, ds, rfl, hdigits⟩ := isBareOctal_cases h
  have hd : isOctalDigit d = true := hdigits d (by simp)
  have hradix {letters : List Char} {p : Char → Bool}
      (hletters : letters.any isOctalDigit = false) :
      readRadix letters p ('0' :: d :: ds ++ c :: after) = none :=
    readRadix_of_not_mem (fun hmem => List.any_eq_false.mp hletters d hmem hd) p _
  have hbare : readBareOctal ('0' :: d :: ds ++ c :: after) =
      some ('0' :: d :: ds, c :: after) := by
    have hblank : isOctalDigit c = false ∧
        (isDecimal c || c = '.' || c = 'e' || c = 'E') = false := by
      simp only [List.mem_cons, List.not_mem_nil, or_false] at hc
      rcases hc with rfl | rfl <;> decide
    refine notBefore_eq_some.mpr ⟨andThen_eq_some.mpr ⟨['0'], d :: ds ++ c :: after, d :: ds,
      rfl, many_eq_some.mpr ⟨List.cons_ne_nil _ _, rfl, fun e he => ?_, ?_⟩, rfl⟩, ?_⟩
    · exact hdigits e (List.mem_cons_of_mem _ he)
    · simpa using hblank.1
    · simpa using hblank.2
  refine readNext_of_none 2 rfl ?_ (orElse_eq_some.mpr (.inr ⟨hradix rfl, hbare⟩))
  simp only [readers, List.cons_append, List.take_succ_cons, List.take_zero, List.forall_mem_cons]
  exact ⟨hradix rfl, hradix rfl, List.forall_mem_nil _⟩

/-- The next piece of a text is the same before a blank, if it has an end. -/
theorem readNext_append_blank (h : readNext cs = some (kind, read, rest))
    (hends : rest = [] → kind ≠ none ∧ kind ≠ some .openLiteral ∧ kind ≠ some .openLine)
    (hc : c ∈ [' ', '\t']) (after : List Char) :
    readNext (cs ++ c :: after) = some (kind, read, rest ++ c :: after) := by
  have hopen : kind ≠ some .openLine := by
    rintro rfl
    obtain ⟨reader, hmem, hread⟩ := readNext_reads h
    obtain rfl : reader = readOpenLine := List.mem_singleton.mp hmem
    exact (hends (rest_of_readOpenLine hread)).2.2 rfl
  obtain ⟨⟨other, piece, left⟩, hpiece⟩ :=
    Option.isSome_iff_exists.mp (isSome_readNext_append h hopen (c :: after))
  obtain ⟨more, hmore, rfl⟩ : ∃ more, cs = piece ++ more ∧ left = more ++ c :: after := by
    rcases List.append_eq_append_iff.mp (sound_readNext hpiece) with h | ⟨beyond, rfl, hbeyond⟩
    · exact h
    · cases beyond with
      | nil => exact ⟨[], by simp, by simpa using hbeyond.symm⟩
      | cons d beyond =>
        cases hbeyond
        obtain ⟨hrest, hkind⟩ := open_of_covers h hpiece hc
        have hends := hends hrest
        tauto
  have hcut : readNext cs = some (other, piece, more) := by
    refine readNext_cut hpiece ?_ ?_
    · rintro ⟨x, y, z, d, later, -, hafter, -, -, -, hd⟩
      cases hafter
      exact absurd hd (by simp [false_of_gap (List.mem_cons_of_mem _ hc) (p := isDecimal) rfl])
    · rintro ⟨rfl, hoctal, rfl⟩
      rw [List.append_nil] at hmore
      subst hmore
      cases hpiece.symm.trans (readNext_of_bareOctal hoctal hc after)
  cases hcut.symm.trans h
  exact hpiece

/-! ## Runs of the lexer -/

/-- The last token ends where the text ends, and it has an end of its own. -/
def EndsClosed (index : Nat) (cs : List Char) (tokens : List Token) : Prop :=
  ∃ last, tokens.getLast? = some last ∧ last.stop = index + cs.length ∧
    last.kind ≠ .openLiteral ∧ last.kind ≠ .openLine

namespace Lexes

/-- A text that ends with such a token lexes as before when a blank comes behind. -/
theorem before_blank (h : Lexes index cs tokens []) (hends : cs = [] ∨ EndsClosed index cs tokens)
    (hc : c ∈ [' ', '\t']) (after : List Char) :
    Lexes index (cs ++ c :: after) tokens (c :: after) := by
  generalize hleft : ([] : List Char) = left at h
  induction h with
  | done =>
    subst hleft
    exact .done
  | @next index cs kind read rest tokens left hread hrest ih =>
    obtain ⟨last, hlast, hstop, hkind⟩ := hends.resolve_left (ne_nil_of_readNext hread)
    have hlength := congrArg List.length (sound_readNext hread)
    rw [List.length_append] at hlength
    refine .next (readNext_append_blank hread ?_ hc after) (ih ?_ hleft)
    · rintro rfl
      obtain rfl : tokens = [] := hrest.eq_nil hleft.symm
      cases kind with
      | none => cases hlast
      | some kind =>
        cases hlast
        simpa using hkind
    · by_cases hempty : rest = []
      · exact .inl hempty
      · refine .inr ⟨last, ?_, by omega, hkind⟩
        cases kind with
        | none => exact hlast
        | some kind =>
          cases tokens with
          | nil =>
            obtain rfl : last = ⟨kind, String.ofList read, index⟩ := (Option.some.inj hlast).symm
            have hpos := List.length_pos_iff.mpr hempty
            simp only [Token.stop, String.length_ofList] at hstop
            omega
          | cons token tokens =>
            rw [← hlast]
            exact (List.getLast?_cons_cons ..).symm

theorem left_of_openLine (h : Lexes index cs tokens left) :
    ∀ token ∈ tokens, token.kind = .openLine → left = [] := by
  intro token htoken hkind
  obtain ⟨_, _, _, -, hleft, hread, -⟩ := h.exists_read token htoken
  rw [hkind] at hread
  obtain ⟨reader, hmem, hread⟩ := readNext_reads hread
  obtain rfl : reader = readOpenLine := List.mem_singleton.mp hmem
  obtain rfl := rest_of_readOpenLine hread
  exact List.suffix_nil.mp hleft

/-- A token that stands at the start of a text does not start with a blank. -/
theorem head_of_token {token : Token} (h : Lexes index cs (token :: tokens) left)
    (hindex : token.site.index = index) : ∃ d ∈ cs.head?, isInlineBlank d = false := by
  generalize hall : token :: tokens = all at h
  cases h with
  | done => cases hall
  | @next _ _ kind read rest others _ hread hrest =>
    obtain ⟨d, ds, rfl⟩ := List.exists_cons_of_ne_nil (ne_nil_of_readNext hread)
    cases kind with
    | none =>
      obtain rfl : token :: tokens = others := hall
      obtain ⟨_, _, -, hplace⟩ := hrest.within token List.mem_cons_self
      have hmoves := List.length_pos_iff.mpr (moves_readNext hread)
      omega
    | some kind =>
      refine ⟨d, rfl, Bool.eq_false_iff.mpr fun hd => ?_⟩
      cases kind_of_blank hd (starts_readNext hread)

/-- Blanks between two texts, each of which lexes alone. -/
theorem blanks_between {others : List Token} {blanks behind : List Char}
    (h : Lexes index cs tokens []) (hends : EndsClosed index cs tokens)
    (hbehind : Lexes (index + cs.length) behind others [])
    (hhead : ∃ d ∈ behind.head?, isInlineBlank d = false) (hne : blanks ≠ [])
    (hblanks : ∀ c ∈ blanks, c = ' ' ∨ c = '\t') :
    Lexes index (cs ++ (blanks ++ behind))
      (tokens ++ others.map (Token.shift blanks.length)) [] := by
  have hall : many isInlineBlank (blanks ++ behind) = some (blanks, behind) := by
    refine many_eq_some.mpr ⟨hne, rfl, fun c hc => ?_, fun c hc => ?_⟩
    · rcases hblanks c hc with rfl | rfl <;> rfl
    · obtain ⟨d, hd, hblank⟩ := hhead
      cases (Option.mem_def.mp hc).symm.trans hd
      exact hblank
  have hrest : Lexes (index + cs.length) (blanks ++ behind)
      (others.map (Token.shift blanks.length)) [] :=
    .next (readNext_of_blanks hall) (hbehind.shift blanks.length)
  obtain ⟨c, more, rfl⟩ := List.exists_cons_of_ne_nil hne
  have hc : c ∈ [' ', '\t'] := by simpa using hblanks c List.mem_cons_self
  exact (h.before_blank (.inr hends) hc (more ++ behind)).trans hrest

end Lexes

/-- Two tokens of a source with nothing between them. -/
structure Joint (before behind : String) (a : List Token) (x y : Token) (b : List Token) :
    Prop where
  lexed : lex (before ++ behind) = ⟨a ++ x :: y :: b, none⟩
  stop : x.stop = before.length
  start : y.site.index = before.length

namespace Joint

variable {before blanks behind : String} {a b : List Token} {x y : Token}

/-- The two halves of the source. The first one may end in digits that need what comes next. -/
theorem halves (h : Joint before behind a x y b) :
    Lexes 0 (before.toList ++ behind.toList) (a ++ [x]) behind.toList ∧
      Lexes before.length behind.toList (y :: b) [] := by
  have hrun : Lexes 0 (before.toList ++ behind.toList) ((a ++ [x]) ++ y :: b) [] := by
    rw [← String.toList_append, List.append_assoc]
    exact lex_eq_iff.mp h.lexed
  obtain ⟨read, rest, hsource, hstart, hrest, hstop⟩ := hrun.split
  have hlength : before.toList.length = read.length := by
    have hstop := hstop x (by simp)
    have hx := h.stop
    rw [String.length_toList]
    omega
  obtain ⟨rfl, rfl⟩ := List.append_inj hsource hlength
  rw [String.length_toList, Nat.zero_add] at hrest
  exact ⟨hstart, hrest⟩

/-- The token behind the place does not start with a blank. -/
theorem head (h : Joint before behind a x y b) :
    ∃ d ∈ behind.toList.head?, isInlineBlank d = false := h.halves.2.head_of_token h.start

theorem endsClosed (h : Joint before behind a x y b) (hopen : x.kind ≠ .openLiteral) :
    EndsClosed 0 before.toList (a ++ [x]) := by
  refine ⟨x, by simp, by rw [h.stop, String.length_toList, Nat.zero_add], hopen, fun hkind => ?_⟩
  obtain ⟨d, hd, -⟩ := h.head
  rw [h.halves.1.left_of_openLine x (by simp) hkind] at hd
  cases hd

/-- Blanks between two tokens that touch change no token. -/
theorem lex_insert (h : Joint before behind a x y b) (hoctal : x.isBareOctal = false)
    (hopen : x.kind ≠ .openLiteral) (hblanks : ∀ c ∈ blanks.toList, c = ' ' ∨ c = '\t') :
    lex (before ++ blanks ++ behind) =
      ⟨a ++ x :: (y :: b).map (Token.shift blanks.length), none⟩ := by
  by_cases hempty : blanks = ""
  · subst hempty
    have hzero : Token.shift "".length = id := rfl
    rw [String.append_empty, hzero, List.map_id, h.lexed]
  · obtain ⟨hstart, hbehind⟩ := h.halves
    have hbefore := hstart.cut (by simpa using hoctal)
    rw [← Nat.zero_add before.length, ← String.length_toList] at hbehind
    have hrun := hbefore.blanks_between (h.endsClosed hopen) hbehind h.head
      (mt String.toList_eq_nil_iff.mp hempty) hblanks
    rw [lex_eq_iff, String.toList_append, String.toList_append, List.append_assoc,
      ← String.length_toList]
    simpa using hrun

end Joint

end Calculator.Grammar
