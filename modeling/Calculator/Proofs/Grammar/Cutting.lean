import Calculator.Proofs.Grammar.Reader

/-!
# Cutting off the rest of a text

A token is read alike with and without the text behind it, with two exceptions. Digits behind a
comma may be a group only because the next digit is missing, and a zero with octal digits is another
token only because an exponent seems to follow.
-/

namespace Calculator.Grammar

open Calculator.Text Reader

variable {cs read rest after : List Char}

/-! ## Numbers -/

def isComma (c : Char) : Bool := c = ','

/-- What comes next is neither another digit nor another group of digits. -/
def isApart (c : Char) : Bool := !isComma c && !isDecimal c

theorem sound_takeGroups (cs : List Char) : (takeGroups cs).1 ++ (takeGroups cs).2 = cs := by
  fun_induction takeGroups cs with
  | case1 a b c rest _ groups left hgroups ih =>
    rw [hgroups] at ih
    simp [ih]
  | case2 => rfl
  | case3 => rfl

/-- Digits that are a group only because the next digit is missing. -/
def TearsGroup (rest after : List Char) : Prop :=
  ∃ x y z d later, rest = [',', x, y, z] ∧ after = d :: later ∧
    isDecimal x ∧ isDecimal y ∧ isDecimal z ∧ isDecimal d

theorem takeGroups_of_apart {c : Char} (hc : isComma c = false) (rest : List Char) :
    takeGroups (c :: rest) = ([], c :: rest) := by
  rw [takeGroups]
  rintro x y z left heq
  cases heq
  cases hc

/-- A group is a comma and three digits. -/
theorem takeGroups_cases (cs : List Char) : (takeGroups cs).1 = [] ∨
    ∃ x y z more, (takeGroups cs).1 = ',' :: x :: y :: z :: more := by
  fun_cases takeGroups cs with
  | case1 x y z rest _ groups left hgroups => exact .inr ⟨x, y, z, groups, rfl⟩
  | case2 => exact .inl rfl
  | case3 => exact .inl rfl

theorem stays_takeGroups {c : Char} (h : (takeGroups cs).2 = c :: rest) (hc : isApart c)
    (after : List Char) :
    takeGroups (cs ++ after) = ((takeGroups cs).1, c :: rest ++ after) := by
  fun_induction takeGroups cs with
  | case1 x y z left hdigits groups middle hgroups ih =>
    rw [hgroups] at ih
    cases left with
    | nil =>
      cases hgroups
      cases h
    | cons d left =>
      change takeGroups (',' :: x :: y :: z :: (d :: left ++ after)) = _
      rw [takeGroups, if_pos (by exact hdigits), ih h]
  | case2 =>
    cases h
    cases hc
  | case3 cs hshape =>
    subst h
    simp only [isApart, Bool.and_eq_true, Bool.not_eq_true'] at hc
    exact takeGroups_of_apart hc.1 (rest ++ after)

theorem takeGroups_append (h : takeGroups (cs ++ after) = (read, rest ++ after)) :
    read ++ rest = cs := by
  have happend := sound_takeGroups (cs ++ after)
  rw [h, ← List.append_assoc] at happend
  exact List.append_cancel_right happend

section

variable {x y z : Char} {left : List Char}

theorem isGroup_of_append
    (h : isDecimal x && isDecimal y && isDecimal z && !(left ++ after).head?.any isDecimal) :
    isDecimal x && isDecimal y && isDecimal z && !left.head?.any isDecimal := by
  cases left with
  | nil => exact Bool.and_eq_true_iff.mpr ⟨(Bool.and_eq_true_iff.mp h).1, rfl⟩
  | cons d left => exact h

/-- A group in the shorter text only ends where the text is cut. -/
theorem tears_of_isGroup
    (h : isDecimal x && isDecimal y && isDecimal z && !left.head?.any isDecimal)
    (hwhole :
      ¬ (isDecimal x && isDecimal y && isDecimal z && !(left ++ after).head?.any isDecimal) = true) :
    TearsGroup (',' :: x :: y :: z :: left) after := by
  cases left with
  | cons d left => exact absurd h hwhole
  | nil =>
    cases after with
    | nil => exact absurd h hwhole
    | cons d after =>
      simp only [Bool.and_eq_true] at h
      have hd : isDecimal d = true := by
        simpa [h.1.1.1, h.1.1.2, h.1.2] using hwhole
      exact ⟨x, y, z, d, after, rfl, rfl, h.1.1.1, h.1.1.2, h.1.2, hd⟩

end

theorem cuts_takeGroups (h : takeGroups (cs ++ after) = (read, rest ++ after))
    (htears : ¬ TearsGroup rest after) : takeGroups cs = (read, rest) := by
  have hsound := takeGroups_append h
  fun_induction takeGroups cs generalizing read with
  | case1 x y z left hdigits groups middle hgroups ih =>
    rw [hgroups] at ih
    change takeGroups (',' :: x :: y :: z :: (left ++ after)) = _ at h
    rw [takeGroups] at h
    split at h
    case isTrue =>
      obtain ⟨rfl, hrest⟩ := Prod.mk.inj h
      have hinner : takeGroups (left ++ after) = ((takeGroups (left ++ after)).1, rest ++ after) :=
        Prod.ext rfl hrest
      cases ih hinner (takeGroups_append hinner)
      rfl
    case isFalse hwhole =>
      obtain ⟨rfl, hrest⟩ := Prod.mk.inj h
      cases hsound
      exact absurd (tears_of_isGroup hdigits hwhole) htears
  | case2 x y z left hdigits =>
    change takeGroups (',' :: x :: y :: z :: (left ++ after)) = _ at h
    rw [takeGroups, if_neg (mt isGroup_of_append hdigits)] at h
    obtain ⟨rfl, -⟩ := Prod.mk.inj h
    exact congrArg (Prod.mk []) hsound.symm
  | case3 cs hshape =>
    rcases takeGroups_cases (cs ++ after) with hnil | ⟨x, y, z, more, hmore⟩
    · rw [h] at hnil
      cases hnil
      rw [← hsound]
      rfl
    · rw [h] at hmore
      cases hmore
      exact absurd hsound.symm (hshape x y z _)

theorem readWhole_eq_some : readWhole cs = some (read, rest) ↔
    ∃ digits middle, many isDecimal cs = some (digits, middle) ∧
      read = digits ++ (takeGroups middle).1 ∧ rest = (takeGroups middle).2 := by
  unfold readWhole
  rw [andThen_eq_some]
  constructor
  · rintro ⟨digits, middle, groups, hdigits, hgroups, rfl⟩
    have heq := Option.some.inj hgroups
    exact ⟨digits, middle, hdigits, by rw [heq], by rw [heq]⟩
  · rintro ⟨digits, middle, hdigits, rfl, rfl⟩
    exact ⟨digits, middle, _, hdigits, rfl, rfl⟩

theorem sound_readWhole : Sound readWhole := by
  apply (sound_many isDecimal).andThen
  intro cs read rest h
  have hsound := sound_takeGroups cs
  rw [Option.some.inj h] at hsound
  exact hsound

theorem moves_readWhole : Moves readWhole := (moves_many isDecimal).andThen _

theorem isSome_readWhole (cs : List Char) : (readWhole cs).isSome = cs.head?.any isDecimal := by
  rw [← isSome_many]
  unfold readWhole andThen
  cases many isDecimal cs <;> rfl

theorem grows_readWhole : Grows readWhole := grows_of_head isSome_readWhole

theorem staysBefore_readWhole : StaysBefore isApart readWhole := by
  intro cs read c rest after hc h
  obtain ⟨digits, middle, hdigits, rfl, hrest⟩ := readWhole_eq_some.mp h
  have hgroups := stays_takeGroups hrest.symm hc after
  cases middle with
  | nil => cases hrest
  | cons d middle =>
    have hmany := staysBefore_many isDecimal (fun _ => true) after rfl hdigits
    exact readWhole_eq_some.mpr ⟨digits, _, hmany, by rw [hgroups], by rw [hgroups]⟩

theorem cuts_readWhole (h : readWhole (cs ++ after) = some (read, rest ++ after))
    (htears : ¬ TearsGroup rest after) : readWhole cs = some (read, rest) := by
  obtain ⟨digits, middle, hdigits, rfl, hrest⟩ := readWhole_eq_some.mp h
  have hmiddle := sound_takeGroups middle
  rw [← hrest, ← List.append_assoc] at hmiddle
  rw [← hmiddle] at hdigits
  have hgroups : takeGroups ((takeGroups middle).1 ++ rest) = ((takeGroups middle).1, rest) := by
    apply cuts_takeGroups _ htears
    rw [hmiddle, hrest]
  exact readWhole_eq_some.mpr
    ⟨digits, _, cuts_many isDecimal hdigits, by rw [hgroups], by rw [hgroups]⟩

/-- What starts with such a character cannot tear a group. -/
theorem Reader.Cuts.readWhole_andThen {second : Reader} (hstart : StartsWith isApart second)
    (hcuts : Cuts second) (hsound : Sound second) : Cuts (readWhole.andThen second) := by
  intro cs after read rest h
  obtain ⟨a, middle, b, ha, hb, rfl⟩ := andThen_eq_some.mp h
  have hapart := hstart (Option.isSome_of_eq_some hb)
  have hmiddle := hsound hb
  rw [← List.append_assoc] at hmiddle
  subst hmiddle
  have hwhole : readWhole cs = some (a, b ++ rest) := by
    apply cuts_readWhole ha
    rintro ⟨x, y, z, d, later, hgroup, rfl, -⟩
    rw [hgroup] at hapart
    cases hapart
  exact andThen_eq_some.mpr ⟨a, _, b, hwhole, hcuts hb, rfl⟩

theorem startsWith_readFraction : StartsWith isApart readFraction :=
  (startsWith_oneOf rfl).andThen _

theorem sound_readFraction : Sound readFraction := (sound_oneOf _).andThen (sound_many _)

theorem moves_readFraction : Moves readFraction := (moves_oneOf _).andThen _

theorem grows_readFraction : Grows readFraction := (stays_oneOf _).andThen_grows (grows_many _)

theorem cuts_readFraction : Cuts readFraction :=
  (cuts_oneOf _).andThen (cuts_many _) (sound_many _)

theorem staysBefore_readFraction (ok : Char → Bool) : StaysBefore ok readFraction := by
  intro cs read c rest after hc h
  obtain ⟨a, middle, b, ha, hb, rfl⟩ := andThen_eq_some.mp h
  exact andThen_eq_some.mpr
    ⟨a, _, b, stays_oneOf _ after ha, staysBefore_many _ ok after hc hb, rfl⟩

theorem readFloat_of_decimal {c : Char} (hc : isDecimal c = true) (cs : List Char) :
    readFloat (c :: cs) = readWhole.andThen readFraction (c :: cs) := by
  simp [readFloat, hc]

theorem readFloat_of_not_decimal (h : cs.head?.any isDecimal = false) :
    readFloat cs = readFraction cs := by
  simp [readFloat, h]

theorem sound_readFloat : Sound readFloat := by
  intro cs read rest h
  unfold readFloat at h
  split at h
  · exact sound_readWhole.andThen sound_readFraction h
  · exact sound_readFraction h

theorem moves_readFloat : Moves readFloat := by
  intro cs read rest h
  unfold readFloat at h
  split at h
  · exact moves_readWhole.andThen _ h
  · exact moves_readFraction h

theorem grows_readFloat : Grows readFloat := by
  intro cs after h
  cases cs with
  | nil => cases h
  | cons c cs =>
    by_cases hc : isDecimal c = true
    · rw [List.cons_append, readFloat_of_decimal hc] at *
      exact staysBefore_readWhole.andThen_grows startsWith_readFraction grows_readFraction after h
    · have hhead (cs : List Char) : (c :: cs).head?.any isDecimal = false := by simpa using hc
      rw [List.cons_append, readFloat_of_not_decimal (hhead _)] at *
      exact grows_readFraction after h

theorem cuts_readFloat : Cuts readFloat := by
  intro cs after read rest h
  have hcs := sound_readFloat.cut h
  cases cs with
  | nil => exact absurd (List.append_eq_nil_iff.mp hcs).1 (moves_readFloat h)
  | cons c cs =>
    by_cases hc : isDecimal c = true
    · rw [List.cons_append, readFloat_of_decimal hc] at *
      exact Cuts.readWhole_andThen startsWith_readFraction cuts_readFraction sound_readFraction h
    · have hhead (cs : List Char) : (c :: cs).head?.any isDecimal = false := by simpa using hc
      rw [List.cons_append, readFloat_of_not_decimal (hhead _)] at *
      exact cuts_readFraction h

theorem staysBefore_readFloat (ok : Char → Bool) : StaysBefore ok readFloat := by
  intro cs read d rest after hd h
  have hcs := sound_readFloat h
  cases cs with
  | nil => cases List.append_eq_nil_iff.mp hcs |>.2
  | cons c cs =>
    by_cases hc : isDecimal c = true
    · rw [List.cons_append, readFloat_of_decimal hc] at *
      exact staysBefore_readWhole.andThen startsWith_readFraction (staysBefore_readFraction ok)
        after hd h
    · have hhead (cs : List Char) : (c :: cs).head?.any isDecimal = false := by simpa using hc
      rw [List.cons_append, readFloat_of_not_decimal (hhead _)] at *
      exact staysBefore_readFraction ok after hd h

theorem startsWith_readExponent : StartsWith isApart readExponent :=
  (startsWith_oneOf rfl).andThen _

theorem sound_readExponent : Sound readExponent :=
  (sound_oneOf _).andThen ((sound_oneOf _).optional.andThen (sound_many _))

theorem cuts_readExponent : Cuts readExponent :=
  (cuts_oneOf _).andThen
    (((cuts_oneOf _).optional (stays_oneOf _).grows).andThen (cuts_many _) (sound_many _))
    ((sound_oneOf _).optional.andThen (sound_many _))

theorem grows_readExponent : Grows readExponent := by
  apply (stays_oneOf _).andThen_grows
  have hstays := (stays_oneOf ['+', '-']).staysBefore fun _ => true
  apply (hstays.optional (isSome_oneOf _)).andThen_grows _ (grows_many isDecimal)
  intro cs h
  rw [isSome_many] at h
  cases cs with
  | nil => cases h
  | cons c cs => rfl

theorem sound_readScientific : Sound readScientific :=
  (sound_readFloat.andThen sound_readExponent).orElse
    (sound_readWhole.andThen sound_readExponent)

theorem moves_readScientific : Moves readScientific :=
  (moves_readFloat.andThen _).orElse (moves_readWhole.andThen _)

theorem grows_readFloat_exponent : Grows (readFloat.andThen readExponent) :=
  (staysBefore_readFloat isApart).andThen_grows startsWith_readExponent grows_readExponent

theorem grows_readScientific : Grows readScientific :=
  grows_readFloat_exponent.orElse
    (staysBefore_readWhole.andThen_grows startsWith_readExponent grows_readExponent)

theorem cuts_readScientific : Cuts readScientific :=
  (cuts_readFloat.andThen cuts_readExponent sound_readExponent).orElse grows_readFloat_exponent
    (.readWhole_andThen startsWith_readExponent cuts_readExponent sound_readExponent)

section

variable (letters : List Char) (p : Char → Bool)

theorem sound_readRadix : Sound (readRadix letters p) :=
  (sound_oneOf _).andThen ((sound_oneOf _).andThen (sound_many _))

theorem moves_readRadix : Moves (readRadix letters p) := (moves_oneOf _).andThen _

theorem grows_readRadix : Grows (readRadix letters p) :=
  (stays_oneOf _).andThen_grows ((stays_oneOf _).andThen_grows (grows_many _))

theorem cuts_readRadix : Cuts (readRadix letters p) :=
  (cuts_oneOf _).andThen ((cuts_oneOf _).andThen (cuts_many _) (sound_many _))
    ((sound_oneOf _).andThen (sound_many _))

end

theorem sound_readBareOctal : Sound readBareOctal :=
  ((sound_oneOf _).andThen (sound_many _)).notBefore _

theorem moves_readBareOctal : Moves readBareOctal := ((moves_oneOf _).andThen _).notBefore _

theorem cuts_readBareOctal : Cuts readBareOctal :=
  ((cuts_oneOf _).andThen (cuts_many _) (sound_many _)).notBefore _

/-! ## Words and quotes -/

theorem settled_readLetters (letters : List Char) : Settled (readLetters letters) := by
  intro cs read rest h
  fun_induction readLetters letters cs generalizing read with
  | case1 cs => cases h; exact ⟨rfl, fun _ => rfl⟩
  | case2 letter letters c cs hletter ih =>
    obtain ⟨⟨word, left⟩, hword, heq⟩ := Option.map_eq_some_iff.mp h
    cases heq
    obtain ⟨hcs, halone⟩ := ih hword
    refine ⟨congrArg (c :: ·) hcs, fun after => ?_⟩
    rw [List.cons_append, readLetters, if_pos hletter, halone]
    rfl
  | case3 => cases h
  | case4 => cases h

theorem moves_readLetters (letter : Char) (letters : List Char) :
    Moves (readLetters (letter :: letters)) := by
  intro cs read rest h
  cases cs with
  | nil => cases h
  | cons c cs =>
    rw [readLetters] at h
    split at h
    · obtain ⟨⟨word, left⟩, -, heq⟩ := Option.map_eq_some_iff.mp h
      cases heq
      exact List.cons_ne_nil _ _
    · cases h

theorem sound_readBoolean : Sound readBoolean :=
  ((settled_readLetters _).sound.orElse (settled_readLetters _).sound).notBefore _

theorem cuts_readBoolean : Cuts readBoolean :=
  ((settled_readLetters _).cuts.orElse (settled_readLetters _).stays.grows
    (settled_readLetters _).cuts).notBefore _

section

variable {quote : Char}

theorem readQuoted_quote (cs : List Char) :
    readQuoted quote (quote :: cs) = some ([quote], cs) := by
  rw [readQuoted.eq_def]
  exact if_pos rfl

/-- A backslash takes any character with it but a newline. -/
theorem readQuoted_escaped {d : Char} (hquote : '\\' ≠ quote) (hd : ¬d = '\n')
    (ds : List Char) : readQuoted quote ('\\' :: d :: ds) =
      (readQuoted quote ds).map fun (read, rest) => ('\\' :: d :: read, rest) := by
  rw [readQuoted.eq_def]
  simp only [if_neg hquote, if_neg hd]
  rfl

theorem readQuoted_other {c : Char} (hquote : ¬c = quote) (hnewline : ¬c = '\n')
    (hescape : ¬c = '\\') (cs : List Char) : readQuoted quote (c :: cs) =
      (readQuoted quote cs).map fun (read, rest) => (c :: read, rest) := by
  rw [readQuoted.eq_def]
  simp only [if_neg hquote, if_neg hnewline, if_neg hescape]

theorem moves_readBoolean : Moves readBoolean :=
  ((moves_readLetters _ _).orElse (moves_readLetters _ _)).notBefore _

theorem settled_readQuoted (quote : Char) : Settled (readQuoted quote) := by
  intro cs read rest h
  fun_induction readQuoted quote cs generalizing read with
  | case1 => cases h
  | case2 cs =>
    cases h
    exact ⟨rfl, readQuoted_quote⟩
  | case3 => cases h
  | case4 => cases h
  | case5 => cases h
  | case6 d ds hd hquote _ ih =>
    obtain ⟨⟨inside, left⟩, hinside, heq⟩ := Option.map_eq_some_iff.mp h
    cases heq
    obtain ⟨hds, halone⟩ := ih hinside
    refine ⟨congrArg (_ :: d :: ·) hds, fun after => ?_⟩
    rw [List.cons_append, List.cons_append, readQuoted_escaped hquote hd, halone]
    rfl
  | case7 c cs hquote hnewline hescape ih =>
    obtain ⟨⟨inside, left⟩, hinside, heq⟩ := Option.map_eq_some_iff.mp h
    cases heq
    obtain ⟨hcs, halone⟩ := ih hinside
    refine ⟨congrArg (c :: ·) hcs, fun after => ?_⟩
    rw [List.cons_append, readQuoted_other hquote hnewline hescape, halone]
    rfl

theorem readString_eq_some : readString cs = some (read, rest) ↔
    ∃ c inside ds, (c = '"' ∨ c = '\'') ∧ cs = c :: ds ∧
      readQuoted c ds = some (inside, rest) ∧ read = c :: inside := by
  cases cs with
  | nil => simp [readString]
  | cons c cs =>
    rw [readString]
    split
    case isTrue hc =>
      simp only [Bool.or_eq_true, decide_eq_true_eq] at hc
      constructor
      · intro h
        obtain ⟨⟨inside, left⟩, hinside, heq⟩ := Option.map_eq_some_iff.mp h
        cases heq
        exact ⟨c, inside, cs, hc, rfl, hinside, rfl⟩
      · rintro ⟨c, inside, ds, -, hcs, hinside, rfl⟩
        cases hcs
        rw [hinside]
        rfl
    case isFalse hc =>
      constructor
      · intro h
        cases h
      · rintro ⟨d, inside, ds, hd, hcs, -⟩
        cases hcs
        simp [hd] at hc

end

theorem settled_readString : Settled readString := by
  intro cs read rest h
  obtain ⟨c, inside, ds, hc, rfl, hinside, rfl⟩ := readString_eq_some.mp h
  obtain ⟨hds, halone⟩ := settled_readQuoted c hinside
  exact ⟨congrArg (c :: ·) hds, fun after =>
    readString_eq_some.mpr ⟨c, inside, inside ++ after, hc, rfl, halone after, rfl⟩⟩

theorem sound_readString : Sound readString := settled_readString.sound

theorem stays_readString : Stays readString := settled_readString.stays

theorem cuts_readString : Cuts readString := settled_readString.cuts

theorem moves_readString : Moves readString := by
  intro cs read rest h
  obtain ⟨c, inside, ds, -, -, -, rfl⟩ := readString_eq_some.mp h
  exact List.cons_ne_nil _ _

theorem sound_restOfLine : Sound restOfLine := (sound_many _).optional

theorem cuts_restOfLine : Cuts restOfLine := (cuts_many _).optional (grows_many _)

theorem sound_readOpenLiteral : Sound readOpenLiteral := (sound_oneOf _).andThen sound_restOfLine

theorem grows_readOpenLiteral : Grows readOpenLiteral :=
  (stays_oneOf _).andThen_grows (grows_optional _)

theorem cuts_readOpenLiteral : Cuts readOpenLiteral :=
  (cuts_oneOf _).andThen cuts_restOfLine sound_restOfLine

theorem readIdentifier_eq_some : readIdentifier cs = some (read, rest) ↔
    (∀ c ∈ cs.head?, startsName c = true) ∧ many isWord cs = some (read, rest) := by
  unfold readIdentifier
  cases cs with
  | nil => simp [many]
  | cons c cs =>
    by_cases hc : startsName c = true <;> simp [hc]

theorem sound_readIdentifier : Sound readIdentifier := fun _ _ _ h =>
  sound_many isWord (readIdentifier_eq_some.mp h).2

theorem moves_readIdentifier : Moves readIdentifier := fun _ _ _ h =>
  moves_many isWord (readIdentifier_eq_some.mp h).2

theorem grows_readIdentifier : Grows readIdentifier := by
  intro cs after h
  cases cs with
  | nil => cases h
  | cons c cs =>
    by_cases hc : startsName c = true
    · have hmany (cs : List Char) : readIdentifier (c :: cs) = many isWord (c :: cs) := by
        simp [readIdentifier, hc]
      rw [List.cons_append, hmany] at *
      exact grows_many isWord after h
    · simp [readIdentifier, hc] at h

theorem cuts_readIdentifier : Cuts readIdentifier := by
  intro cs after read rest h
  obtain ⟨hhead, hread⟩ := readIdentifier_eq_some.mp h
  refine readIdentifier_eq_some.mpr ⟨fun c hc => hhead c ?_, cuts_many isWord hread⟩
  rw [List.head?_append, hc]
  rfl

/-! ## Lines and blanks -/

theorem sound_readNewline : Sound readNewline := (sound_oneOf _).optional.andThen (sound_oneOf _)

theorem cuts_readNewline : Cuts readNewline :=
  ((cuts_oneOf _).optional (stays_oneOf _).grows).andThen (cuts_oneOf _) (sound_oneOf _)

theorem grows_readNewline : Grows readNewline :=
  (((stays_oneOf ['\r']).staysBefore fun _ => true).optional (isSome_oneOf _)).andThen_grows
    (startsWith_oneOf rfl) (stays_oneOf _).grows

theorem sound_readBackslash : Sound readBackslash := (sound_oneOf _).andThen (sound_many _).optional

theorem cuts_readBackslash : Cuts readBackslash :=
  (cuts_oneOf _).andThen ((cuts_many _).optional (grows_many _)) (sound_many _).optional

theorem sound_readContinuation : Sound readContinuation :=
  sound_readBackslash.andThen sound_readNewline

theorem cuts_readContinuation : Cuts readContinuation :=
  cuts_readBackslash.andThen cuts_readNewline sound_readNewline

theorem grows_readContinuation : Grows readContinuation := by
  have hbackslash : StaysBefore (fun _ => true) readBackslash :=
    (stays_oneOf _).andThen_staysBefore ((staysBefore_many _ _).optional fun _ => isSome_many)
  apply hbackslash.andThen_grows _ grows_readNewline
  exact (startsWith_oneOf rfl).optional_andThen (startsWith_oneOf rfl)

theorem sound_readOpenLine : Sound readOpenLine := sound_readBackslash.notBefore _

theorem cuts_readOpenLine : Cuts readOpenLine := cuts_readBackslash.notBefore _

theorem sound_readComment : Sound readComment := (sound_exactly _).andThen sound_restOfLine

theorem grows_readComment : Grows readComment := (stays_exactly _).andThen_grows (grows_optional _)

theorem cuts_readComment : Cuts readComment :=
  (cuts_exactly _).andThen cuts_restOfLine sound_restOfLine

end Calculator.Grammar
