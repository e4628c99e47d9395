import Calculator.Proofs.Grammar.Cutting

/-!
# The next piece of a source

The reader that wins in a text also wins in the text that is cut off behind what it has read. A
reader before it could win there only because nothing follows: an octal number that is no exponent's
number any more, a boolean that is no name's start any more, or a backslash at the end. Of these
only the first comes about.
-/

namespace Calculator.Grammar

open Calculator.Text Reader

variable {cs read rest after : List Char} {kind : Option Terminal} {reader : Reader}

/-! ## The readers as a whole -/

theorem sound_of_mem_readers : ∀ r ∈ readers, Sound r.2 := by
  simp only [readers, List.cons_append, List.nil_append, List.forall_mem_cons, List.forall_mem_map]
  refine ⟨sound_readRadix _ _, sound_readRadix _ _,
    (sound_readRadix _ _).orElse sound_readBareOctal, sound_readScientific, sound_readFloat,
    sound_readBoolean, sound_readString, sound_readWhole, sound_readOpenLiteral, sound_readComment,
    sound_readContinuation, sound_readOpenLine, sound_readNewline, sound_many _,
    sound_readIdentifier, sound_oneOf _, ?_⟩
  exact fun op _ => sound_exactly op.2

theorem ne_nil_of_mem_operators : ∀ op ∈ operators, op.2 ≠ [] := by decide

theorem moves_of_mem_readers : ∀ r ∈ readers, Moves r.2 := by
  simp only [readers, List.cons_append, List.nil_append, List.forall_mem_cons, List.forall_mem_map]
  refine ⟨moves_readRadix _ _, moves_readRadix _ _,
    (moves_readRadix _ _).orElse moves_readBareOctal, moves_readScientific, moves_readFloat,
    moves_readBoolean, moves_readString, moves_readWhole, (moves_oneOf _).andThen _,
    (moves_exactly (by decide)).andThen _, ((moves_oneOf _).andThen _).andThen _,
    ((moves_oneOf _).andThen _).notBefore _, (moves_oneOf _).andThen_second _, moves_many _,
    moves_readIdentifier, moves_oneOf _, ?_⟩
  exact fun op hop => moves_exactly (ne_nil_of_mem_operators op hop)

/-- Only an integer can tear a group of digits. -/
theorem cuts_of_mem_readers : ∀ r ∈ readers, r.2 (cs ++ after) = some (read, rest ++ after) →
    ¬ TearsGroup rest after → r.2 cs = some (read, rest) := by
  simp only [readers, List.cons_append, List.nil_append, List.forall_mem_cons, List.forall_mem_map]
  have hcuts {reader : Reader} (h : Cuts reader) :
      reader (cs ++ after) = some (read, rest ++ after) → ¬ TearsGroup rest after →
        reader cs = some (read, rest) := fun hread _ => h hread
  refine ⟨hcuts (cuts_readRadix _ _), hcuts (cuts_readRadix _ _),
    hcuts ((cuts_readRadix _ _).orElse (grows_readRadix _ _) cuts_readBareOctal),
    hcuts cuts_readScientific, hcuts cuts_readFloat, hcuts cuts_readBoolean, hcuts cuts_readString,
    cuts_readWhole, hcuts cuts_readOpenLiteral, hcuts cuts_readComment,
    hcuts cuts_readContinuation, hcuts cuts_readOpenLine, hcuts cuts_readNewline,
    hcuts (cuts_many _), hcuts cuts_readIdentifier, hcuts (cuts_oneOf _), ?_⟩
  exact fun op _ => hcuts (cuts_exactly op.2)

theorem readNext_eq_some (h : readNext cs = some (kind, read, rest)) :
    ∃ reader, (kind, reader) ∈ readers ∧ reader cs = some (read, rest) := by
  obtain ⟨⟨terminal, reader⟩, hmem, hread⟩ := List.exists_of_findSome?_eq_some h
  obtain ⟨⟨a, b⟩, hread, heq⟩ := Option.map_eq_some_iff.mp hread
  cases heq
  exact ⟨reader, hmem, hread⟩

/-- The readers of one kind of piece. -/
def readersFor (kind : Option Terminal) : List Reader :=
  (readers.filter fun r => r.1 = kind).map (·.2)

theorem mem_readersFor (h : (kind, reader) ∈ readers) : reader ∈ readersFor kind := by
  refine List.mem_map.mpr ⟨(kind, reader), List.mem_filter.mpr ⟨h, ?_⟩, rfl⟩
  exact decide_eq_true rfl

theorem readNext_reads (h : readNext cs = some (kind, read, rest)) :
    ∃ reader ∈ readersFor kind, reader cs = some (read, rest) := by
  obtain ⟨reader, hmem, hread⟩ := readNext_eq_some h
  exact ⟨reader, mem_readersFor hmem, hread⟩

theorem sound_readNext (h : readNext cs = some (kind, read, rest)) : read ++ rest = cs := by
  obtain ⟨reader, hmem, hread⟩ := readNext_eq_some h
  exact sound_of_mem_readers _ hmem hread

theorem moves_readNext (h : readNext cs = some (kind, read, rest)) : read ≠ [] := by
  obtain ⟨reader, hmem, hread⟩ := readNext_eq_some h
  exact moves_of_mem_readers _ hmem hread

/-! ## How a piece starts -/

/-- The characters that a piece of the kind can start with. -/
def starts : Option Terminal → Char → Bool
  | none, c => c = '/' || c = '\\' || isInlineBlank c
  | some .hex, c | some .bin, c | some .oct, c => c = '0'
  | some .sci, c | some .float, c => isDecimal c || c = '.'
  | some .int, c => isDecimal c
  | some .boolean, c => isLetter 't' c || isLetter 'f' c
  | some .string, c | some .openLiteral, c => c = '"' || c = '\''
  | some .openLine, c => c = '\\'
  | some .newline, c => c = '\r' || c = '\n'
  | some .identifier, c => startsName c
  | some .currencySymbol, c => ['$', '€', '£', '¥'].contains c
  | some kind, c => operators.any fun op => op.1 = kind && op.2.head? = some c

theorem startsWith_readWhole : StartsWith isDecimal readWhole := fun cs h => by
  rwa [← isSome_readWhole]

theorem startsWith_readFloat : StartsWith (fun c => isDecimal c || c = '.') readFloat := by
  intro cs h
  cases cs with
  | nil => cases h
  | cons c cs =>
    by_cases hc : isDecimal c = true
    · simp [hc]
    · have hhead : (c :: cs).head?.any isDecimal = false := by simpa using hc
      rw [readFloat_of_not_decimal hhead] at h
      exact (startsWith_oneOf (by simp)).andThen _ h

theorem startsWith_readScientific :
    StartsWith (fun c => isDecimal c || c = '.') readScientific := by
  intro cs h
  unfold readScientific at h
  rw [isSome_orElse, Bool.or_eq_true] at h
  rcases h with h | h
  · exact startsWith_readFloat.andThen _ h
  · exact (startsWith_readWhole.mono (by simp +contextual)).andThen _ h

theorem startsWith_readLetters (letter : Char) (letters : List Char) :
    StartsWith (isLetter letter) (readLetters (letter :: letters)) := by
  intro cs h
  cases cs with
  | nil => cases h
  | cons c cs =>
    rw [readLetters] at h
    split at h
    · assumption
    · cases h

theorem startsWith_readString : StartsWith (fun c => c = '"' || c = '\'') readString := by
  intro cs h
  obtain ⟨⟨read, rest⟩, h⟩ := Option.isSome_iff_exists.mp h
  obtain ⟨c, inside, ds, hc, rfl, -⟩ := readString_eq_some.mp h
  simpa using hc

theorem startsWith_readBoolean :
    StartsWith (fun c => isLetter 't' c || isLetter 'f' c) readBoolean := by
  apply StartsWith.notBefore
  exact ((startsWith_readLetters _ _).mono (by simp +contextual)).orElse
    ((startsWith_readLetters _ _).mono (by simp +contextual))

theorem startsWith_readIdentifier : StartsWith startsName readIdentifier := by
  intro cs h
  cases cs with
  | nil => cases h
  | cons c cs =>
    obtain ⟨⟨read, rest⟩, h⟩ := Option.isSome_iff_exists.mp h
    exact (readIdentifier_eq_some.mp h).1 c rfl

theorem starts_of_operator : ∀ op ∈ operators, ∀ c, op.2.head? = some c → starts (some op.1) c := by
  simp [operators, starts]

theorem starts_of_mem_readers : ∀ r ∈ readers, StartsWith (starts r.1) r.2 := by
  simp only [readers, List.cons_append, List.nil_append, List.forall_mem_cons, List.forall_mem_map]
  have hzero {reader : Reader} : StartsWith (· = '0') ((oneOf ['0']).andThen reader) :=
    (startsWith_oneOf (by simp)).andThen reader
  have hquote : StartsWith (fun c => c = '"' || c = '\'') readOpenLiteral :=
    (startsWith_oneOf (by simp)).andThen _
  have hbackslash : StartsWith (· = '\\') readBackslash :=
    (startsWith_oneOf (by simp)).andThen _
  have hnewline : StartsWith (fun c => c = '\r' || c = '\n') readNewline :=
    (startsWith_oneOf (by simp)).optional_andThen (startsWith_oneOf (by simp))
  refine ⟨hzero, hzero, hzero.orElse (hzero.notBefore _), startsWith_readScientific,
    startsWith_readFloat, startsWith_readBoolean, startsWith_readString, startsWith_readWhole,
    hquote, ?_, ?_, hbackslash.notBefore _, hnewline, ?_, startsWith_readIdentifier,
    startsWith_oneOf (by simp [starts]), ?_⟩
  · apply ((startsWith_exactly (by decide)).mono _).andThen
    intro c hc
    cases of_decide_eq_true hc
    rfl
  · apply (hbackslash.andThen _).mono
    intro c hc
    cases of_decide_eq_true hc
    rfl
  · exact (startsWith_many isInlineBlank).mono (by simp +contextual [starts])
  · intro op hop
    apply (startsWith_exactly (ne_nil_of_mem_operators op hop)).mono
    exact fun c hc => starts_of_operator op hop c (of_decide_eq_true hc)

theorem starts_readNext {c : Char} (h : readNext (c :: cs) = some (kind, read, rest)) :
    starts kind c = true := by
  obtain ⟨reader, hmem, hread⟩ := readNext_eq_some h
  exact starts_of_mem_readers _ hmem (Option.isSome_of_eq_some hread)

/-- A reader wins where none before it reads anything. -/
theorem readNext_of_none (i : Nat) (hreader : readers[i]? = some (kind, reader))
    (hbefore : ∀ r ∈ readers.take i, r.2 cs = none) (h : reader cs = some (read, rest)) :
    readNext cs = some (kind, read, rest) := by
  obtain ⟨hi, hreader⟩ := List.getElem?_eq_some_iff.mp hreader
  have hsplit : readers = readers.take i ++ (kind, reader) :: readers.drop (i + 1) := by
    rw [← hreader, ← List.drop_eq_getElem_cons hi, List.take_append_drop]
  rw [readNext, hsplit, List.findSome?_append, Option.or_eq_some_iff]
  refine .inr ⟨List.findSome?_eq_none_iff.mpr fun r hr => ?_, ?_⟩
  · dsimp only
    rw [hbefore r hr]
    rfl
  · rw [List.findSome?_cons]
    dsimp only
    rw [h]
    rfl

theorem reader_eq_none {c : Char} {r : Option Terminal × Reader} (hr : r ∈ readers)
    (hstart : starts r.1 c = false) (cs : List Char) : r.2 (c :: cs) = none := by
  rw [← Option.not_isSome_iff_eq_none]
  intro hsome
  have hhead : (c :: cs).head?.any (starts r.1) = true := starts_of_mem_readers r hr hsome
  simp [hstart] at hhead

/-- A reader wins where none before it can start. -/
theorem readNext_of_reader {c : Char} (i : Nat) (hreader : readers[i]? = some (kind, reader))
    (hbefore : ∀ r ∈ readers.take i, starts r.1 c = false)
    (h : reader (c :: cs) = some (read, rest)) :
    readNext (c :: cs) = some (kind, read, rest) :=
  readNext_of_none i hreader
    (fun r hr => reader_eq_none (List.mem_of_mem_take hr) (hbefore r hr) cs) h

theorem readNext_of_blanks (h : many isInlineBlank cs = some (read, rest)) :
    readNext cs = some (none, read, rest) := by
  refine readNext_of_none 13 rfl ?_ h
  obtain ⟨hne, rfl, hblank, -⟩ := many_eq_some.mp h
  obtain ⟨c, read, rfl⟩ := List.exists_cons_of_ne_nil hne
  have hc := hblank c List.mem_cons_self
  simp only [isInlineBlank, Bool.or_eq_true, decide_eq_true_eq] at hc
  simp only [readers, List.cons_append, List.take_succ_cons, List.take_zero, List.forall_mem_cons]
  rcases hc with (rfl | rfl) | rfl <;>
    exact ⟨rfl, rfl, rfl, rfl, rfl, rfl, rfl, rfl, rfl, rfl, rfl, rfl, rfl, List.forall_mem_nil _⟩

/-! ## The three readers that a cut can help -/

/-- As octal numbers are read. -/
abbrev readOct : Reader := (readRadix ['o', 'O'] isOctalDigit).orElse readBareOctal

/-- A zero and octal digits. Alone it is an octal number. -/
def isBareOctal : List Char → Bool
  | '0' :: d :: ds => (d :: ds).all isOctalDigit
  | _ => false

theorem isDecimal_of_octal {c : Char} (h : isOctalDigit c = true) : isDecimal c = true := by
  simp only [isOctalDigit, Bool.and_eq_true, decide_eq_true_eq] at h
  have hascii : c.toNat < 0x80 := Nat.lt_of_le_of_lt (UInt32.le_iff_toNat_le.mp h.2) (by decide)
  have hnine : c ≤ '9' := Char.le_trans h.2 (by decide)
  simp [isDecimal, digitValue?, hascii, h.1, hnine]

theorem kind_of_zero (h : starts kind '0' = true) : kind = some .hex ∨ kind = some .bin ∨
    kind = some .oct ∨ kind = some .sci ∨ kind = some .float ∨ kind = some .int := by
  rcases kind with _ | kind
  · cases h
  · revert h
    cases kind <;> decide

theorem kind_of_backslash (h : starts kind '\\' = true) :
    kind = none ∨ kind = some .openLine := by
  rcases kind with _ | kind
  · exact .inl rfl
  · revert h
    cases kind <;> decide

theorem mem_of_readRadix {letters : List Char} {p : Char → Bool}
    (h : readRadix letters p cs = some (read, rest)) : ∃ c ∈ letters, c ∈ read := by
  obtain ⟨a, middle, b, -, hb, rfl⟩ := andThen_eq_some.mp h
  obtain ⟨letter, left, digits, hletter, -, rfl⟩ := andThen_eq_some.mp hb
  obtain ⟨c, hc, rfl, -⟩ := oneOf_eq_some.mp hletter
  exact ⟨c, hc, by simp⟩

theorem readRadix_of_not_mem {letters : List Char} {c : Char} (h : c ∉ letters) (p : Char → Bool)
    (cs : List Char) : readRadix letters p ('0' :: c :: cs) = none := by
  simp [readRadix, andThen, oneOf, h]

theorem mem_of_readFraction (h : readFraction cs = some (read, rest)) : '.' ∈ read := by
  obtain ⟨a, middle, b, ha, -, rfl⟩ := andThen_eq_some.mp h
  obtain ⟨c, hc, rfl, -⟩ := oneOf_eq_some.mp ha
  cases List.mem_singleton.mp hc
  exact List.mem_cons_self

theorem mem_of_readFloat (h : readFloat cs = some (read, rest)) : '.' ∈ read := by
  unfold readFloat at h
  split at h
  · obtain ⟨a, middle, b, -, hb, rfl⟩ := andThen_eq_some.mp h
    exact List.mem_append_right a (mem_of_readFraction hb)
  · exact mem_of_readFraction h

theorem mem_of_readExponent (h : readExponent cs = some (read, rest)) :
    ∃ c ∈ ['e', 'E'], c ∈ read := by
  obtain ⟨a, middle, b, ha, -, rfl⟩ := andThen_eq_some.mp h
  obtain ⟨c, hc, rfl, -⟩ := oneOf_eq_some.mp ha
  exact ⟨c, hc, List.mem_cons_self⟩

theorem mem_of_readScientific (h : readScientific cs = some (read, rest)) :
    ∃ c ∈ ['e', 'E'], c ∈ read := by
  rcases orElse_eq_some.mp h with h | ⟨-, h⟩ <;>
    obtain ⟨a, middle, b, -, hb, rfl⟩ := andThen_eq_some.mp h <;>
    obtain ⟨c, hc, hmem⟩ := mem_of_readExponent hb <;>
    exact ⟨c, hc, List.mem_append_right a hmem⟩

/-- From a text of digits an integer is all of them. -/
theorem rest_of_readWhole (hcs : ∀ c ∈ read ++ rest, isDecimal c = true)
    (h : readWhole cs = some (read, rest ++ after)) : rest = [] := by
  obtain ⟨digits, middle, hdigits, rfl, hrest⟩ := readWhole_eq_some.mp h
  rcases takeGroups_cases middle with hgroups | ⟨x, y, z, more, hgroups⟩
  · have hmiddle := sound_takeGroups middle
    rw [hgroups, ← hrest, List.nil_append] at hmiddle
    subst hmiddle
    cases rest with
    | nil => rfl
    | cons c rest =>
      have hc := (many_eq_some.mp hdigits).2.2.2 c rfl
      rw [hcs c (by simp)] at hc
      cases hc
  · have hcomma : isDecimal ',' = true := hcs ',' (by simp [hgroups])
    exact absurd hcomma (by decide)

theorem staysBefore_zeroOctal (ok : Char → Bool) :
    StaysBefore ok ((oneOf ['0']).andThen (many isOctalDigit)) :=
  ((stays_oneOf _).staysBefore fun _ => true).andThen (fun cs h => by
    rw [isSome_many] at h
    cases cs with
    | nil => cases h
    | cons => rfl) (staysBefore_many _ ok)

/-- A bare octal that the text behind it forbids is all of the text before. -/
theorem readBareOctal_of_cut (h : readBareOctal cs = some (read, rest))
    (hnone : readBareOctal (cs ++ after) = none) : isBareOctal cs = true := by
  obtain ⟨hread, hhead⟩ := notBefore_eq_some.mp h
  cases rest with
  | nil =>
    obtain ⟨zero, middle, digits, hzero, hdigits, rfl⟩ := andThen_eq_some.mp hread
    obtain ⟨c, hc, rfl, rfl⟩ := oneOf_eq_some.mp hzero
    cases List.mem_singleton.mp hc
    obtain ⟨hne, rfl, hoctal, -⟩ := many_eq_some.mp hdigits
    cases digits with
    | nil => exact absurd rfl hne
    | cons d digits =>
      rw [List.append_nil]
      exact List.all_eq_true.mpr hoctal
  | cons c rest =>
    have hlonger := staysBefore_zeroOctal (fun _ => true) after rfl hread
    have hsome : readBareOctal (cs ++ after) = some (read, c :: rest ++ after) :=
      notBefore_eq_some.mpr ⟨hlonger, hhead⟩
    rw [hnone] at hsome
    cases hsome

theorem isBareOctal_cases (h : isBareOctal cs = true) :
    ∃ d ds, cs = '0' :: d :: ds ∧ ∀ c ∈ cs, isOctalDigit c = true := by
  unfold isBareOctal at h
  split at h
  · rename_i d ds
    have hdigits := List.all_eq_true.mp h
    exact ⟨d, ds, rfl, List.forall_mem_cons.mpr ⟨by decide, hdigits⟩⟩
  · cases h

/-- A zero, if it is no octal number, and if no other character shows another kind. -/
theorem readNext_zero (h : readNext ('0' :: cs) = some (kind, read, rest)) :
    readOct ('0' :: cs) = some (read, rest) ∨
      (kind = some .int ∧ readWhole ('0' :: cs) = some (read, rest)) ∨
      ∃ c ∈ read, isOctalDigit c = false := by
  have hletter {letters : List Char} (hletters : letters.any isOctalDigit = false)
      (hmem : ∃ c ∈ letters, c ∈ read) : ∃ c ∈ read, isOctalDigit c = false := by
    obtain ⟨c, hc, hread⟩ := hmem
    exact ⟨c, hread, Bool.eq_false_iff.mpr (List.any_eq_false.mp hletters c hc)⟩
  obtain ⟨reader, hmem, hread⟩ := readNext_reads h
  rcases kind_of_zero (starts_readNext h) with rfl | rfl | rfl | rfl | rfl | rfl
  case inl =>
    obtain rfl : reader = readRadix ['x', 'X'] isHexDigit := List.mem_singleton.mp hmem
    exact .inr (.inr (hletter rfl (mem_of_readRadix hread)))
  case inr.inl =>
    obtain rfl : reader = readRadix ['b', 'B'] isBinaryDigit := List.mem_singleton.mp hmem
    exact .inr (.inr (hletter rfl (mem_of_readRadix hread)))
  case inr.inr.inl =>
    obtain rfl : reader = readOct := List.mem_singleton.mp hmem
    exact .inl hread
  case inr.inr.inr.inl =>
    obtain rfl : reader = readScientific := List.mem_singleton.mp hmem
    exact .inr (.inr (hletter rfl (mem_of_readScientific hread)))
  case inr.inr.inr.inr.inl =>
    obtain rfl : reader = readFloat := List.mem_singleton.mp hmem
    exact .inr (.inr ⟨'.', mem_of_readFloat hread, by decide⟩)
  case inr.inr.inr.inr.inr =>
    obtain rfl : reader = readWhole := List.mem_singleton.mp hmem
    exact .inr (.inl ⟨rfl, hread⟩)

theorem readOct_of_cut (h : readNext (cs ++ after) = some (kind, read, rest ++ after))
    (hexcept : ¬ (kind = some .int ∧ isBareOctal read = true ∧ rest = []))
    (hnone : readOct (cs ++ after) = none) :
    readOct cs = none := by
  rw [Option.eq_none_iff_forall_not_mem]
  rintro ⟨number, left⟩ hoct
  have hboth : readRadix ['o', 'O'] isOctalDigit (cs ++ after) = none ∧
      readBareOctal (cs ++ after) = none := by
    unfold readOct orElse at hnone
    split at hnone
    · cases hnone
    · exact ⟨by assumption, hnone⟩
  have hoctal : isBareOctal cs = true := by
    rcases orElse_eq_some.mp hoct with hsome | ⟨-, hsome⟩
    · rw [(grows_readRadix _ _).none_of_append hboth.1] at hsome
      cases hsome
    · exact readBareOctal_of_cut hsome hboth.2
  have hcs : read ++ rest = cs := List.append_cancel_right (by
    rw [List.append_assoc, sound_readNext h])
  obtain ⟨d, ds, hzero, hdigits⟩ := isBareOctal_cases hoctal
  rw [hzero, List.cons_append] at h hnone
  -- The text before is a zero and octal digits, and the longer text starts with it.
  rcases readNext_zero h with hread | ⟨hkind, hread⟩ | ⟨c, hc, hother⟩
  · rw [hnone] at hread
    cases hread
  · have hrest : rest = [] := rest_of_readWhole
      (fun c hc => isDecimal_of_octal (hdigits c (hcs ▸ hc))) hread
    subst hrest
    rw [List.append_nil] at hcs
    exact hexcept ⟨hkind, hcs ▸ hoctal, rfl⟩
  · rw [hdigits c (hcs ▸ List.mem_append_left rest hc)] at hother
    cases hother

/-! A boolean that only the text behind it forbids is the start of a longer name. -/

theorem eq_of_toLower {c d : Char} (h : c.toLower = d) : c = d ∨ c.toNat + 32 = d.toNat := by
  unfold Char.toLower at h
  split at h
  case isTrue hc =>
    subst h
    have hle : c.val.toNat ≤ 90 := UInt32.le_iff_toNat_le.mp hc.2
    have hshift : ('a'.val - 'A'.val).toNat = 32 := rfl
    have hsum := UInt32.toNat_add c.val ('a'.val - 'A'.val)
    rw [hshift] at hsum
    simp only [Char.toNat]
    omega
  case isFalse => exact .inl h

theorem isLetter_cases {letter c : Char} (h : isLetter letter c = true) :
    c = letter ∨ c.toNat + 32 = letter.toNat ∨ (letter = 's' ∧ c = 'ſ') := by
  simp only [isLetter, Bool.or_eq_true, Bool.and_eq_true, decide_eq_true_eq] at h
  rcases h with h | h
  · exact (eq_of_toLower h).imp_right .inl
  · exact .inr (.inr h)

theorem isUpper_iff {c : Char} : c.isUpper = true ↔ 65 ≤ c.toNat ∧ c.toNat ≤ 90 := by
  have hbounds : c.isUpper = true ↔ 'A'.val ≤ c.val ∧ c.val ≤ 'Z'.val := decide_eq_true_iff
  rw [hbounds, UInt32.le_iff_toNat_le, UInt32.le_iff_toNat_le]
  rfl

theorem isLower_iff {c : Char} : c.isLower = true ↔ 97 ≤ c.toNat ∧ c.toNat ≤ 122 := by
  have hbounds : c.isLower = true ↔ 'a'.val ≤ c.val ∧ c.val ≤ 'z'.val :=
    Bool.and_eq_true_iff.trans (and_congr decide_eq_true_iff decide_eq_true_iff)
  rw [hbounds, UInt32.le_iff_toNat_le, UInt32.le_iff_toNat_le]
  rfl

theorem isWord_of_isAlpha {c : Char} (h : c.isAlpha = true) : isWord c = true := by
  have hcases : c.isUpper = true ∨ c.isLower = true := Bool.or_eq_true_iff.mp h
  have hascii : c.toNat < 0x80 := by
    rw [isUpper_iff, isLower_iff] at hcases
    omega
  simp [isWord, hascii, Char.isAlphanum, h]

theorem isWord_of_isLetter {letter c : Char} (hletter : letter.isLower = true)
    (h : isLetter letter c = true) : isWord c = true := by
  rcases isLetter_cases h with rfl | hshift | ⟨-, rfl⟩
  · exact isWord_of_isAlpha (Bool.or_eq_true_iff.mpr (.inr hletter))
  · have hupper : c.isUpper = true := by
      rw [isLower_iff] at hletter
      rw [isUpper_iff]
      omega
    exact isWord_of_isAlpha (Bool.or_eq_true_iff.mpr (.inl hupper))
  · decide

theorem isWord_of_readLetters {letters : List Char}
    (hletters : letters.all Char.isLower = true)
    (h : readLetters letters cs = some (read, rest)) : ∀ c ∈ read, isWord c = true := by
  fun_induction readLetters letters cs generalizing read with
  | case1 cs =>
    cases h
    exact fun c hc => absurd hc List.not_mem_nil
  | case2 letter letters c cs hletter ih =>
    obtain ⟨⟨word, left⟩, hword, heq⟩ := Option.map_eq_some_iff.mp h
    cases heq
    rw [List.all_cons, Bool.and_eq_true] at hletters
    rw [List.forall_mem_cons]
    exact ⟨isWord_of_isLetter hletters.1 hletter, ih hletters.2 hword⟩
  | case3 => cases h
  | case4 => cases h

theorem boolean_start {c : Char} (h : isLetter 't' c || isLetter 'f' c) :
    c = 't' ∨ c = 'T' ∨ c = 'f' ∨ c = 'F' := by
  rcases Bool.or_eq_true_iff.mp h with h | h <;>
    rcases isLetter_cases h with rfl | hupper | ⟨hs, -⟩
  · exact .inl rfl
  · exact .inr (.inl (Char.toNat_inj.mp (Nat.add_right_cancel hupper)))
  · cases hs
  · exact .inr (.inr (.inl rfl))
  · exact .inr (.inr (.inr (Char.toNat_inj.mp (Nat.add_right_cancel hupper))))
  · cases hs

theorem kind_of_letter {c : Char} (hletter : isLetter 't' c || isLetter 'f' c)
    (h : starts kind c = true) : kind = some .boolean ∨ kind = some .identifier := by
  rcases boolean_start hletter with rfl | rfl | rfl | rfl <;> rcases kind with _ | kind
  all_goals first
    | cases h
    | revert h; cases kind <;> decide

theorem readNext_letter {c : Char} (hletter : isLetter 't' c || isLetter 'f' c)
    (h : readNext (c :: cs) = some (kind, read, rest)) :
    readBoolean (c :: cs) = some (read, rest) ∨ many isWord (c :: cs) = some (read, rest) := by
  obtain ⟨reader, hmem, hread⟩ := readNext_reads h
  rcases kind_of_letter hletter (starts_readNext h) with rfl | rfl
  · obtain rfl : reader = readBoolean := List.mem_singleton.mp hmem
    exact .inl hread
  · obtain rfl : reader = readIdentifier := List.mem_singleton.mp hmem
    exact .inr (readIdentifier_eq_some.mp hread).2

/-- No text starts with both words. -/
theorem readLetters_false {left : List Char}
    (h : readLetters ['f', 'a', 'l', 's', 'e'] cs = some (read, left)) :
    readLetters ['t', 'r', 'u', 'e'] (cs ++ after) = none := by
  cases cs with
  | nil => cases h
  | cons c cs =>
    rw [readLetters] at h
    split at h
    case isTrue hf =>
      have ht : isLetter 't' c = false := by
        rcases isLetter_cases hf with rfl | hupper | ⟨hs, -⟩
        · decide
        · cases (Char.toNat_inj.mp (Nat.add_right_cancel hupper) : c = 'F')
          decide
        · cases hs
      simp [readLetters, ht]
    case isFalse => cases h

/-- A boolean that the text behind it forbids is all of the text before, and a name goes on. -/
theorem readBoolean_eq_none (h : readBoolean cs = some (read, rest))
    (hnone : readBoolean (cs ++ after) = none) :
    (∀ c ∈ cs, isWord c = true) ∧ ∃ c ∈ after.head?, isWord c = true := by
  obtain ⟨hread, hhead⟩ := notBefore_eq_some.mp h
  have hlonger : ((readLetters ['t', 'r', 'u', 'e']).orElse
      (readLetters ['f', 'a', 'l', 's', 'e'])) (cs ++ after) = some (read, rest ++ after) := by
    apply orElse_eq_some.mpr
    rcases orElse_eq_some.mp hread with hread | ⟨-, hread⟩
    · exact .inl ((settled_readLetters _).stays after hread)
    · exact .inr ⟨readLetters_false hread, (settled_readLetters _).stays after hread⟩
  have hword : ∀ c ∈ read, isWord c = true := by
    rcases orElse_eq_some.mp hread with hread | ⟨-, hread⟩ <;>
      exact isWord_of_readLetters rfl hread
  have hforbids : ∃ c ∈ (rest ++ after).head?, isWord c = true := by
    by_contra hfree
    push Not at hfree
    have hsome : readBoolean (cs ++ after) = some (read, rest ++ after) :=
      notBefore_eq_some.mpr ⟨hlonger, fun c hc => Bool.eq_false_iff.mpr (hfree c hc)⟩
    rw [hnone] at hsome
    cases hsome
  cases rest with
  | nil =>
    have hcs := ((settled_readLetters _).sound.orElse (settled_readLetters _).sound) hread
    rw [List.append_nil] at hcs
    exact ⟨hcs ▸ hword, hforbids⟩
  | cons c rest =>
    obtain ⟨d, hd, hword⟩ := hforbids
    cases hd
    rw [hhead c rfl] at hword
    cases hword

theorem readBoolean_of_cut (h : readNext (cs ++ after) = some (kind, read, rest ++ after))
    (hnone : readBoolean (cs ++ after) = none) : readBoolean cs = none := by
  rw [Option.eq_none_iff_forall_not_mem]
  rintro ⟨word, left⟩ hboolean
  obtain ⟨hword, c, hc, hforbids⟩ := readBoolean_eq_none hboolean hnone
  have hcs : read ++ rest = cs := List.append_cancel_right (by
    rw [List.append_assoc, sound_readNext h])
  cases cs with
  | nil => cases hboolean
  | cons d ds =>
    have hletter := startsWith_readBoolean (Option.isSome_of_eq_some hboolean)
    rcases readNext_letter hletter h with hread | hread
    · cases hnone.symm.trans hread
    · have hstop := (many_eq_some.mp hread).2.2.2
      cases rest with
      | nil =>
        rw [hstop c hc] at hforbids
        cases hforbids
      | cons e rest =>
        have he := hword e (hcs ▸ List.mem_append_right read List.mem_cons_self)
        rw [hstop e rfl] at he
        cases he

/-! A backslash at the end is a continuation's only with a newline. -/

theorem readNext_backslash (h : readNext ('\\' :: cs) = some (kind, read, rest)) :
    readOpenLine ('\\' :: cs) = some (read, rest) ∨
      readContinuation ('\\' :: cs) = some (read, rest) := by
  obtain ⟨reader, hmem, hread⟩ := readNext_reads h
  rcases kind_of_backslash (starts_readNext h) with rfl | rfl
  · have hreader : reader ∈ [readComment, readContinuation, many isInlineBlank] := hmem
    simp only [List.mem_cons, List.not_mem_nil, or_false] at hreader
    rcases hreader with rfl | rfl | rfl
    · cases hread
    · exact .inr hread
    · cases hread
  · obtain rfl : reader = readOpenLine := List.mem_singleton.mp hmem
    exact .inl hread

theorem newline_mem_of_readContinuation (h : readContinuation cs = some (read, rest)) :
    '\n' ∈ read := by
  obtain ⟨a, middle, b, -, hb, rfl⟩ := andThen_eq_some.mp h
  obtain ⟨c, left, d, -, hd, rfl⟩ := andThen_eq_some.mp hb
  obtain ⟨e, he, rfl, -⟩ := oneOf_eq_some.mp hd
  cases List.mem_singleton.mp he
  simp

theorem rest_of_readOpenLine (h : readOpenLine cs = some (read, rest)) : rest = [] := by
  have hhead := (notBefore_eq_some.mp h).2
  cases rest with
  | nil => rfl
  | cons c rest => cases hhead c rfl

theorem readOpenLine_eq_some (h : readOpenLine cs = some (read, rest)) :
    ∃ ds, cs = '\\' :: ds ∧ '\n' ∉ cs := by
  obtain rfl := rest_of_readOpenLine h
  have hread := (notBefore_eq_some.mp h).1
  obtain ⟨a, middle, b, ha, hb, rfl⟩ := andThen_eq_some.mp hread
  obtain ⟨c, hc, rfl, rfl⟩ := oneOf_eq_some.mp ha
  cases List.mem_singleton.mp hc
  refine ⟨middle, rfl, fun hmem => ?_⟩
  rcases List.mem_cons.mp hmem with hmem | hmem
  · cases hmem
  · rcases optional_eq_some.mp hb with hb | ⟨-, rfl, rfl⟩
    · obtain ⟨-, hmiddle, hblank, -⟩ := many_eq_some.mp hb
      rw [List.append_nil] at hmiddle
      cases hblank '\n' (hmiddle ▸ hmem)
    · cases hmem

theorem readOpenLine_of_cut (h : readNext (cs ++ after) = some (kind, read, rest ++ after))
    (hnone : readOpenLine (cs ++ after) = none) : readOpenLine cs = none := by
  rw [Option.eq_none_iff_forall_not_mem]
  rintro ⟨piece, left⟩ hopen
  obtain ⟨ds, rfl, hnewline⟩ := readOpenLine_eq_some hopen
  have hcs : read ++ rest = '\\' :: ds := List.append_cancel_right (by
    rw [List.append_assoc, sound_readNext h])
  rcases readNext_backslash h with hread | hread
  · cases hnone.symm.trans hread
  · exact hnewline (hcs ▸ List.mem_append_left rest (newline_mem_of_readContinuation hread))

/-! ## All readers together -/

/-- What is read stays the same when the text is cut off behind it, with the two exceptions. -/
theorem readNext_cut (h : readNext (cs ++ after) = some (kind, read, rest ++ after))
    (htears : ¬ TearsGroup rest after)
    (hexcept : ¬ (kind = some .int ∧ isBareOctal read = true ∧ rest = [])) :
    readNext cs = some (kind, read, rest) := by
  obtain ⟨before, ⟨terminal, reader⟩, others, hreaders, hread, hbefore⟩ :=
    List.findSome?_eq_some_iff.mp h
  obtain ⟨⟨a, b⟩, hread, heq⟩ := Option.map_eq_some_iff.mp hread
  cases heq
  -- No reader before the one that wins gets better by the cut.
  have hnone : ∀ r ∈ readers, r.2 (cs ++ after) = none → r.2 cs = none := by
    simp only [readers, List.cons_append, List.nil_append, List.forall_mem_cons,
      List.forall_mem_map]
    refine ⟨(grows_readRadix _ _).none_of_append, (grows_readRadix _ _).none_of_append,
      readOct_of_cut h hexcept, grows_readScientific.none_of_append, grows_readFloat.none_of_append,
      readBoolean_of_cut h, stays_readString.grows.none_of_append, grows_readWhole.none_of_append,
      grows_readOpenLiteral.none_of_append, grows_readComment.none_of_append,
      grows_readContinuation.none_of_append, readOpenLine_of_cut h,
      grows_readNewline.none_of_append, (grows_many _).none_of_append,
      grows_readIdentifier.none_of_append, (stays_oneOf _).grows.none_of_append, ?_⟩
    exact fun op _ => (stays_exactly op.2).grows.none_of_append
  have hmem : (kind, reader) ∈ readers := by simp [hreaders]
  refine List.findSome?_eq_some_iff.mpr ⟨before, (kind, reader), others, hreaders, ?_, ?_⟩
  · have hcut : reader cs = some (read, rest) := cuts_of_mem_readers _ hmem hread htears
    exact Option.map_eq_some_iff.mpr ⟨_, hcut, rfl⟩
  · intro r hr
    have hlonger := Option.map_eq_none_iff.mp (hbefore r hr)
    have hr : r ∈ readers := by simp [hreaders, hr]
    exact Option.map_eq_none_iff.mpr (hnone r hr hlonger)

/-! ## A group that is torn -/

theorem kind_of_comma (h : starts kind ',' = true) : kind = some .comma := by
  rcases kind with _ | kind
  · cases h
  · revert h
    cases kind <;> decide

theorem readNext_comma (h : readNext (',' :: cs) = some (kind, read, rest)) : rest = cs := by
  obtain ⟨reader, hmem, hread⟩ := readNext_reads h
  cases kind_of_comma (starts_readNext h)
  obtain rfl : reader = exactly [','] := List.mem_singleton.mp hmem
  obtain ⟨-, hcs⟩ := exactly_eq_some.mp hread
  exact (List.cons.inj hcs).2.symm

/-- Reads all digits at the start of a text, if there are two or more. -/
def TakesDigits (reader : Reader) : Prop :=
  ∀ ⦃c d digits cs read rest⦄, (∀ e ∈ c :: d :: digits, isDecimal e = true) →
    reader (c :: d :: digits ++ cs) = some (read, rest) → (c :: d :: digits).length ≤ read.length

/-- What stops at no digit has read all digits at the start. -/
theorem length_le_of_head {digits : List Char} (hdigits : ∀ c ∈ digits, isDecimal c = true)
    (happend : read ++ rest = digits ++ cs) (hhead : ∀ c ∈ rest.head?, isDecimal c = false) :
    digits.length ≤ read.length := by
  by_contra hlonger
  rw [Nat.not_le] at hlonger
  have htake : (read ++ rest)[read.length]? = digits[read.length]? := by
    rw [happend, List.getElem?_append_left hlonger]
  rw [List.getElem?_append_right (Nat.le_refl _), Nat.sub_self, ← List.head?_eq_getElem?,
    List.getElem?_eq_getElem hlonger] at htake
  have hc := hhead _ htake
  rw [hdigits _ (List.getElem_mem hlonger)] at hc
  cases hc

theorem takesDigits_of_startsWith (h : StartsWith (fun c => !isDecimal c) reader) :
    TakesDigits reader := by
  intro c d digits cs read rest hdigits hread
  have hhead : (!isDecimal c) = true := h (Option.isSome_of_eq_some hread)
  rw [hdigits c List.mem_cons_self] at hhead
  cases hhead

theorem TakesDigits.orElse {first second : Reader} (hfirst : TakesDigits first)
    (hsecond : TakesDigits second) : TakesDigits (first.orElse second) := by
  intro c d digits cs read rest hdigits h
  rcases orElse_eq_some.mp h with h | ⟨-, h⟩
  · exact hfirst hdigits h
  · exact hsecond hdigits h

theorem TakesDigits.andThen {first : Reader} (h : TakesDigits first) (second : Reader) :
    TakesDigits (first.andThen second) := by
  intro c d digits cs read rest hdigits hread
  obtain ⟨a, middle, b, ha, -, rfl⟩ := andThen_eq_some.mp hread
  rw [List.length_append]
  exact Nat.le_add_right_of_le (h hdigits ha)

theorem takesDigits_readWhole : TakesDigits readWhole := by
  apply TakesDigits.andThen
  intro c d digits cs read rest hdigits h
  obtain ⟨-, happend, -, hhead⟩ := many_eq_some.mp h
  exact length_le_of_head hdigits happend hhead

theorem takesDigits_readFloat : TakesDigits readFloat := by
  intro c d digits cs read rest hdigits h
  rw [List.cons_append, readFloat_of_decimal (hdigits c List.mem_cons_self)] at h
  exact takesDigits_readWhole.andThen _ hdigits h

theorem takesDigits_readRadix {letters : List Char} (p : Char → Bool)
    (hletters : letters.all (!isDecimal ·) = true) : TakesDigits (readRadix letters p) := by
  intro c d digits cs read rest hdigits h
  obtain ⟨a, middle, b, ha, hb, rfl⟩ := andThen_eq_some.mp h
  obtain ⟨_, -, -, hmiddle⟩ := oneOf_eq_some.mp ha
  obtain ⟨e, left, f, he, -, -⟩ := andThen_eq_some.mp hb
  obtain ⟨letter, hletter, -, rfl⟩ := oneOf_eq_some.mp he
  cases hmiddle
  -- The second character would be a letter.
  have hdecimal := List.all_eq_true.mp hletters d hletter
  rw [hdigits d (by simp)] at hdecimal
  cases hdecimal

theorem takesDigits_readBareOctal : TakesDigits readBareOctal := by
  intro c d digits cs read rest hdigits h
  have hhead : ∀ c ∈ rest.head?, isDecimal c = false := by
    intro e he
    have hnot := (notBefore_eq_some.mp h).2 e he
    simp only [Bool.or_eq_false_iff] at hnot
    exact hnot.1.1.1
  exact length_le_of_head hdigits (sound_readBareOctal h) hhead

theorem TakesDigits.notBefore (h : TakesDigits reader) (p : Char → Bool) :
    TakesDigits (reader.notBefore p) := by
  intro c d digits cs read rest hdigits hread
  exact h hdigits (notBefore_eq_some.mp hread).1

theorem takesDigits_oneOf {chars : List Char} (h : chars.all (!isDecimal ·) = true) :
    TakesDigits (oneOf chars) :=
  takesDigits_of_startsWith (startsWith_oneOf h)

theorem takesDigits_exactly {c : Char} {chars : List Char} (h : isDecimal c = false) :
    TakesDigits (exactly (c :: chars)) := by
  apply takesDigits_of_startsWith
  apply (startsWith_exactly (List.cons_ne_nil c chars)).mono
  intro d hd
  cases of_decide_eq_true hd
  rw [h]
  rfl

theorem takesDigits_operator : ∀ op ∈ operators, TakesDigits (exactly op.2) := by
  have hhead : ∀ op ∈ operators, ∃ c chars, op.2 = c :: chars ∧ isDecimal c = false := by
    intro op hop
    have htable : ∀ op ∈ operators, op.2.head?.any (!isDecimal ·) = true := by decide
    have hany := htable op hop
    cases hchars : op.2 with
    | nil => exact absurd hchars (ne_nil_of_mem_operators op hop)
    | cons c chars => exact ⟨c, chars, rfl, by simpa [hchars] using hany⟩
  intro op hop
  obtain ⟨c, chars, hchars, hc⟩ := hhead op hop
  rw [hchars]
  exact takesDigits_exactly hc

theorem takesDigits_of_mem_readers : ∀ r ∈ readers, TakesDigits r.2 := by
  simp only [readers, List.cons_append, List.nil_append, List.forall_mem_cons, List.forall_mem_map]
  have hboolean : StartsWith (fun c => !isDecimal c) readBoolean := by
    apply startsWith_readBoolean.mono
    intro c hc
    rcases boolean_start hc with rfl | rfl | rfl | rfl <;> decide
  have hstring : StartsWith (fun c => !isDecimal c) readString := by
    apply startsWith_readString.mono
    intro c hc
    rcases Bool.or_eq_true_iff.mp hc with hc | hc <;>
      cases of_decide_eq_true hc <;>
      decide
  have hnewline : StartsWith (fun c => !isDecimal c) readNewline :=
    (startsWith_oneOf rfl).optional_andThen (startsWith_oneOf rfl)
  have hblank : StartsWith (fun c => !isDecimal c) (many isInlineBlank) := by
    apply (startsWith_many _).mono
    intro c hc
    simp only [isInlineBlank, Bool.or_eq_true, decide_eq_true_eq] at hc
    rcases hc with (rfl | rfl) | rfl <;> decide
  have hidentifier : StartsWith (fun c => !isDecimal c) readIdentifier := by
    apply startsWith_readIdentifier.mono
    intro c hc
    exact (Bool.and_eq_true_iff.mp hc).2
  have hbackslash : TakesDigits readBackslash := (takesDigits_oneOf rfl).andThen _
  exact ⟨takesDigits_readRadix _ rfl, takesDigits_readRadix _ rfl,
    (takesDigits_readRadix _ rfl).orElse takesDigits_readBareOctal,
    (takesDigits_readFloat.andThen _).orElse (takesDigits_readWhole.andThen _),
    takesDigits_readFloat, takesDigits_of_startsWith hboolean, takesDigits_of_startsWith hstring,
    takesDigits_readWhole, (takesDigits_oneOf rfl).andThen _,
    (takesDigits_exactly rfl).andThen _, hbackslash.andThen _, hbackslash.notBefore _,
    takesDigits_of_startsWith hnewline, takesDigits_of_startsWith hblank,
    takesDigits_of_startsWith hidentifier, takesDigits_oneOf rfl, takesDigits_operator⟩

theorem takesDigits_readNext {c d : Char} {digits : List Char}
    (hdigits : ∀ e ∈ c :: d :: digits, isDecimal e = true)
    (h : readNext (c :: d :: digits ++ cs) = some (kind, read, rest)) :
    (c :: d :: digits).length ≤ read.length := by
  obtain ⟨reader, hmem, hread⟩ := readNext_eq_some h
  exact takesDigits_of_mem_readers _ hmem hdigits hread

end Calculator.Grammar
