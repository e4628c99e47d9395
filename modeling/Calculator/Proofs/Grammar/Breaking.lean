import Calculator.Proofs.Grammar.Lexing

/-!
# Newlines in a source

A newline ends the piece that it is in. So what comes behind a text that ends with a newline changes
nothing about the pieces of this text.
-/

namespace Calculator.Grammar

open Calculator.Text Reader

variable {first second reader : Reader} {p : Char → Bool} {c : Char}
  {cs read rest after : List Char} {kind : Option Terminal}

/-! ## Characters that are in no piece -/

/-- The characters that stand between tokens. Quotes and comments may hold some of them too. -/
def gaps : List Char := ['\n', ' ', '\t']

theorem false_of_gap (hc : c ∈ gaps) (h : (gaps.all fun d => !p d) = true) : p c = false := by
  simpa using List.all_eq_true.mp h c hc

theorem not_mem_of_gap (hc : c ∈ gaps) {chars : List Char}
    (h : (chars.all fun d => !gaps.contains d) = true) : c ∉ chars := by
  intro hmem
  have hother := List.all_eq_true.mp h c hmem
  simp [hc] at hother

namespace Reader

/-- Reads no such character. -/
def Omits (c : Char) (reader : Reader) : Prop :=
  ∀ ⦃cs read rest⦄, reader cs = some (read, rest) → c ∉ read

/-- Reads nothing behind a newline. -/
def Closed (reader : Reader) : Prop :=
  ∀ ⦃cs read rest⦄, reader cs = some (read, rest) → '\n' ∉ read.dropLast

theorem Omits.closed (h : Omits '\n' reader) : Closed reader :=
  fun _ _ _ hread hmem => h hread (List.dropLast_subset _ hmem)

theorem omits_many (h : p c = false) : Omits c (many p) := by
  intro cs read rest hread hmem
  obtain ⟨-, -, hall, -⟩ := many_eq_some.mp hread
  rw [hall c hmem] at h
  cases h

theorem omits_oneOf {chars : List Char} (h : c ∉ chars) : Omits c (oneOf chars) := by
  intro cs read rest hread hmem
  obtain ⟨d, hd, rfl, -⟩ := oneOf_eq_some.mp hread
  exact h (List.mem_singleton.mp hmem ▸ hd)

theorem omits_exactly {expected : List Char} (h : c ∉ expected) :
    Omits c (exactly expected) := by
  intro cs read rest hread
  obtain ⟨rfl, -⟩ := exactly_eq_some.mp hread
  exact h

theorem Omits.andThen (hfirst : Omits c first) (hsecond : Omits c second) :
    Omits c (first.andThen second) := by
  intro cs read rest hread hmem
  obtain ⟨a, middle, b, ha, hb, rfl⟩ := andThen_eq_some.mp hread
  exact (List.mem_append.mp hmem).elim (hfirst ha) (hsecond hb)

theorem Omits.andThen_closed (hfirst : Omits '\n' first) (hsecond : Closed second)
    (hmoves : Moves second) : Closed (first.andThen second) := by
  intro cs read rest hread hmem
  obtain ⟨a, middle, b, ha, hb, rfl⟩ := andThen_eq_some.mp hread
  rw [List.dropLast_append_of_ne_nil (hmoves hb)] at hmem
  exact (List.mem_append.mp hmem).elim (hfirst ha) (hsecond hb)

theorem Omits.orElse (hfirst : Omits c first) (hsecond : Omits c second) :
    Omits c (first.orElse second) := by
  intro cs read rest hread
  rcases orElse_eq_some.mp hread with hread | ⟨-, hread⟩
  · exact hfirst hread
  · exact hsecond hread

theorem Omits.notBefore (h : Omits c reader) (p : Char → Bool) : Omits c (reader.notBefore p) :=
  fun _ _ _ hread => h (notBefore_eq_some.mp hread).1

theorem Omits.optional (h : Omits c reader) : Omits c (optional reader) := by
  intro cs read rest hread
  rcases optional_eq_some.mp hread with hread | ⟨-, rfl, -⟩
  · exact h hread
  · exact List.not_mem_nil

end Reader

theorem not_mem_takeGroups (hc : c ∈ gaps) (cs : List Char) : c ∉ (takeGroups cs).1 := by
  fun_induction takeGroups cs with
  | case1 x y z rest hdigits groups left hgroups ih =>
    rw [hgroups] at ih
    have hdecimal : isDecimal c = false := false_of_gap hc rfl
    have hne : ∀ d, isDecimal d = true → c ≠ d := by
      rintro d hd rfl
      rw [hdecimal] at hd
      cases hd
    have hcomma : c ∉ [','] := not_mem_of_gap hc rfl
    simp only [Bool.and_eq_true] at hdigits
    obtain ⟨⟨⟨hx, hy⟩, hz⟩, -⟩ := hdigits
    simp [ih, hne x hx, hne y hy, hne z hz, List.mem_singleton.not.mp hcomma]
  | case2 => exact List.not_mem_nil
  | case3 => exact List.not_mem_nil

theorem omits_digits (hc : c ∈ gaps) : Omits c (many isDecimal) :=
  omits_many (false_of_gap hc rfl)

theorem omits_readWhole (hc : c ∈ gaps) : Omits c readWhole := by
  refine (omits_digits hc).andThen fun cs read rest hread => ?_
  have hgroups := not_mem_takeGroups hc cs
  rwa [Option.some.inj hread] at hgroups

theorem omits_readFraction (hc : c ∈ gaps) : Omits c readFraction :=
  (omits_oneOf (not_mem_of_gap hc rfl)).andThen (omits_digits hc)

theorem omits_readFloat (hc : c ∈ gaps) : Omits c readFloat := by
  intro cs read rest hread
  unfold readFloat at hread
  split at hread
  · exact ((omits_readWhole hc).andThen (omits_readFraction hc)) hread
  · exact omits_readFraction hc hread

theorem omits_readScientific (hc : c ∈ gaps) : Omits c readScientific := by
  have hexponent : Omits c readExponent := (omits_oneOf (not_mem_of_gap hc rfl)).andThen
    ((omits_oneOf (not_mem_of_gap hc rfl)).optional.andThen (omits_digits hc))
  exact ((omits_readFloat hc).andThen hexponent).orElse ((omits_readWhole hc).andThen hexponent)

theorem omits_readRadix (hc : c ∈ gaps) {letters : List Char}
    (hletters : (letters.all fun d => !gaps.contains d) = true)
    (h : (gaps.all fun d => !p d) = true) : Omits c (readRadix letters p) :=
  (omits_oneOf (not_mem_of_gap hc rfl)).andThen
    ((omits_oneOf (not_mem_of_gap hc hletters)).andThen (omits_many (false_of_gap hc h)))

theorem omits_readOct (hc : c ∈ gaps) : Omits c readOct :=
  (omits_readRadix hc rfl rfl).orElse
    (((omits_oneOf (not_mem_of_gap hc rfl)).andThen (omits_many (false_of_gap hc rfl))).notBefore _)

theorem isLetter_gap (hc : c ∈ gaps) {letter : Char} (h : letter ≠ c) :
    isLetter letter c = false := by
  have hlower : c.toLower = c := by
    simp only [gaps, List.mem_cons, List.not_mem_nil, or_false] at hc
    rcases hc with rfl | rfl | rfl <;> rfl
  have hlong : c ∉ ['ſ'] := not_mem_of_gap hc rfl
  simp [isLetter, hlower, List.mem_singleton.not.mp hlong, Ne.symm h]

theorem omits_readLetters (hc : c ∈ gaps) {letters : List Char} (h : c ∉ letters) :
    Omits c (readLetters letters) := by
  intro cs read rest hread
  fun_induction readLetters letters cs generalizing read with
  | case1 => cases hread; exact List.not_mem_nil
  | case2 letter letters d cs hletter ih =>
    obtain ⟨hfirst, hothers⟩ := not_or.mp (List.mem_cons.not.mp h)
    obtain ⟨⟨word, left⟩, hword, heq⟩ := Option.map_eq_some_iff.mp hread
    cases heq
    refine List.not_mem_cons_of_ne_of_not_mem ?_ (ih hothers hword)
    rintro rfl
    rw [isLetter_gap hc (Ne.symm hfirst)] at hletter
    cases hletter
  | case3 => cases hread
  | case4 => cases hread

theorem omits_readBoolean (hc : c ∈ gaps) : Omits c readBoolean :=
  ((omits_readLetters hc (not_mem_of_gap hc rfl)).orElse
    (omits_readLetters hc (not_mem_of_gap hc rfl))).notBefore _

theorem omits_readIdentifier (hc : c ∈ gaps) : Omits c readIdentifier := fun _ _ _ hread =>
  omits_many (false_of_gap hc rfl) (readIdentifier_eq_some.mp hread).2

/-! ## Newlines in a piece -/

theorem omits_readQuoted {quote : Char} (hquote : '\n' ≠ quote) :
    Omits '\n' (readQuoted quote) := by
  intro cs read rest hread
  fun_induction readQuoted quote cs generalizing read with
  | case1 => cases hread
  | case2 => cases hread; simpa using hquote
  | case3 => cases hread
  | case4 => cases hread
  | case5 => cases hread
  | case6 d ds hd _ _ ih =>
    obtain ⟨⟨inside, left⟩, hinside, heq⟩ := Option.map_eq_some_iff.mp hread
    cases heq
    simp [ih hinside, Ne.symm hd]
  | case7 c cs _ hnewline _ ih =>
    obtain ⟨⟨inside, left⟩, hinside, heq⟩ := Option.map_eq_some_iff.mp hread
    cases heq
    simp [ih hinside, Ne.symm hnewline]

theorem omits_readString : Omits '\n' readString := by
  intro cs read rest hread
  obtain ⟨c, inside, ds, hc, -, hinside, rfl⟩ := readString_eq_some.mp hread
  have hquote : '\n' ≠ c := by rcases hc with rfl | rfl <;> decide
  exact List.not_mem_cons_of_ne_of_not_mem hquote (omits_readQuoted hquote hinside)

theorem omits_restOfLine : Omits '\n' restOfLine := (omits_many (by decide)).optional

theorem omits_readBackslash : Omits '\n' readBackslash :=
  (omits_oneOf (by decide)).andThen (omits_many (by decide)).optional

theorem closed_readNewline : Closed readNewline := by
  refine (omits_oneOf (by decide)).optional.andThen_closed ?_ (moves_oneOf _)
  intro cs read rest hread
  obtain ⟨c, -, rfl, -⟩ := oneOf_eq_some.mp hread
  exact List.not_mem_nil

theorem closed_of_mem_readers : ∀ r ∈ readers, Closed r.2 := by
  have hoperators : ∀ op ∈ operators, '\n' ∉ op.2 := by decide
  have hgap : '\n' ∈ gaps := by decide
  simp only [readers, List.cons_append, List.nil_append, List.forall_mem_cons, List.forall_mem_map]
  exact ⟨(omits_readRadix hgap rfl rfl).closed, (omits_readRadix hgap rfl rfl).closed,
    (omits_readOct hgap).closed, (omits_readScientific hgap).closed, (omits_readFloat hgap).closed,
    (omits_readBoolean hgap).closed, omits_readString.closed, (omits_readWhole hgap).closed,
    ((omits_oneOf (by decide)).andThen omits_restOfLine).closed,
    ((omits_exactly (by decide)).andThen omits_restOfLine).closed,
    omits_readBackslash.andThen_closed closed_readNewline ((moves_oneOf _).andThen_second _),
    (omits_readBackslash.notBefore _).closed, closed_readNewline,
    (omits_many (by decide)).closed, (omits_readIdentifier hgap).closed,
    (omits_oneOf (by decide)).closed, fun op hop => (omits_exactly (hoperators op hop)).closed⟩

theorem newline_not_mem_readNext (h : readNext cs = some (kind, read, rest)) :
    '\n' ∉ read.dropLast := by
  obtain ⟨reader, hmem, hread⟩ := readNext_eq_some h
  exact closed_of_mem_readers _ hmem hread

/-! ## A text that goes on behind a newline -/

theorem ne_nil_of_readNext (h : readNext cs = some (kind, read, rest)) : cs ≠ [] := by
  rintro rfl
  exact moves_readNext h (List.append_eq_nil_iff.mp (sound_readNext h)).1

/-- Some reader still reads something when the text goes on. -/
theorem isSome_readNext_append (h : readNext cs = some (kind, read, rest))
    (hopen : kind ≠ some .openLine) (after : List Char) : (readNext (cs ++ after)).isSome := by
  suffices hreader : ∃ r ∈ readers, (r.2 (cs ++ after)).isSome by
    obtain ⟨r, hr, hsome⟩ := hreader
    exact List.findSome?_isSome_iff.mpr ⟨r, hr, by simpa using hsome⟩
  have hgrows : ∀ r ∈ readers, Grows r.2 ∨
      r.1 = some .oct ∨ r.1 = some .boolean ∨ r.1 = some .openLine := by
    simp only [readers, List.cons_append, List.nil_append, List.forall_mem_cons,
      List.forall_mem_map]
    exact ⟨.inl (grows_readRadix _ _), .inl (grows_readRadix _ _), .inr (.inl trivial),
      .inl grows_readScientific, .inl grows_readFloat, .inr (.inr (.inl trivial)),
      .inl stays_readString.grows, .inl grows_readWhole, .inl grows_readOpenLiteral,
      .inl grows_readComment, .inl grows_readContinuation, .inr (.inr (.inr trivial)),
      .inl grows_readNewline, .inl (grows_many _), .inl grows_readIdentifier,
      .inl (stays_oneOf _).grows, fun op _ => .inl (stays_exactly op.2).grows⟩
  obtain ⟨reader, hmem, hread⟩ := readNext_eq_some h
  obtain ⟨c, ds, rfl⟩ := List.exists_cons_of_ne_nil (ne_nil_of_readNext h)
  have hstarts := starts_readNext h
  have hinteger : (some .int, readWhole) ∈ readers := by simp [readers]
  have hname : (some .identifier, readIdentifier) ∈ readers := by simp [readers]
  rcases hgrows _ hmem with hgrows | rfl | rfl | rfl
  · exact ⟨_, hmem, hgrows after (Option.isSome_of_eq_some hread)⟩
  · obtain rfl : c = '0' := of_decide_eq_true hstarts
    refine ⟨_, hinteger, ?_⟩
    rw [isSome_readWhole]
    rfl
  · refine ⟨_, hname, ?_⟩
    have hc : startsName c = true ∧ isWord c = true := by
      rcases boolean_start hstarts with rfl | rfl | rfl | rfl <;> decide
    have hmany : readIdentifier (c :: ds ++ after) = many isWord (c :: ds ++ after) := by
      simp [readIdentifier, hc.1]
    dsimp only
    rw [hmany, isSome_many]
    simp [hc.2]
  · exact absurd rfl hopen

theorem newline_not_mem_of_openLine (h : readNext cs = some (some .openLine, read, rest)) :
    '\n' ∉ cs := by
  obtain ⟨reader, hmem, hread⟩ := readNext_reads h
  obtain rfl : reader = readOpenLine := List.mem_singleton.mp hmem
  obtain ⟨_, -, hnewline⟩ := readOpenLine_eq_some hread
  exact hnewline

/-- The next piece of a text that ends with a newline is the same when the text goes on. -/
theorem readNext_append (h : readNext cs = some (kind, read, rest))
    (hlast : cs.getLast? = some '\n') (after : List Char) :
    readNext (cs ++ after) = some (kind, read, rest ++ after) := by
  have hopen : kind ≠ some .openLine := by
    rintro rfl
    exact newline_not_mem_of_openLine h (List.mem_of_getLast? hlast)
  obtain ⟨⟨other, piece, left⟩, hpiece⟩ :=
    Option.isSome_iff_exists.mp (isSome_readNext_append h hopen after)
  obtain ⟨before, rfl⟩ := List.getLast?_eq_some_iff.mp hlast
  -- No newline is inside of the piece, so the piece ends before the text that comes behind.
  obtain ⟨more, hmore, rfl⟩ : ∃ more, before ++ ['\n'] = piece ++ more ∧ left = more ++ after := by
    rcases List.append_eq_append_iff.mp (sound_readNext hpiece) with h | ⟨more, rfl, rfl⟩
    · exact h
    · by_cases hempty : more = []
      · exact ⟨[], by simp [hempty], by simp [hempty]⟩
      · have hinside := newline_not_mem_readNext hpiece
        rw [List.dropLast_append_of_ne_nil hempty] at hinside
        simp at hinside
  have hcut : readNext (before ++ ['\n']) = some (other, piece, more) := by
    refine readNext_cut hpiece ?_ ?_
    · rintro ⟨x, y, z, d, later, rfl, -, -, -, hz, -⟩
      have hend := congrArg List.getLast? hmore
      rw [List.getLast?_concat, List.getLast?_append] at hend
      obtain rfl : '\n' = z := Option.some.inj hend
      exact absurd hz (by decide)
    · rintro ⟨-, hoctal, rfl⟩
      obtain ⟨_, _, -, hdigits⟩ := isBareOctal_cases hoctal
      rw [List.append_nil] at hmore
      exact absurd (hdigits '\n' (hmore ▸ by simp)) (by decide)
  rw [hcut] at h
  cases h
  exact hpiece

end Calculator.Grammar
