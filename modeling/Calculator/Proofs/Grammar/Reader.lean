import Calculator.Grammar.Lexer
import Mathlib.Data.List.TakeDrop

/-!
# Readers in longer and shorter texts

A text that goes on behind what has been read can change what a reader reads. These are the readers
for which it does not, and the others with what it takes to change them.
-/

namespace Calculator.Grammar.Reader

open Calculator.Text

/-- What was read and what is left are the text. -/
def Sound (reader : Reader) : Prop :=
  ∀ ⦃cs read rest⦄, reader cs = some (read, rest) → read ++ rest = cs

/-- What reads something still does when the text goes on. -/
def Grows (reader : Reader) : Prop :=
  ∀ ⦃cs⦄ after, (reader cs).isSome → (reader (cs ++ after)).isSome

/-- What is read stays the same when the text goes on. -/
def Stays (reader : Reader) : Prop :=
  ∀ ⦃cs read rest⦄ after, reader cs = some (read, rest) →
    reader (cs ++ after) = some (read, rest ++ after)

/-- What is read stays the same when the text is cut off somewhere behind it. -/
def Cuts (reader : Reader) : Prop :=
  ∀ ⦃cs after read rest⦄, reader (cs ++ after) = some (read, rest ++ after) →
    reader cs = some (read, rest)

/-- What is read is read alike in front of any other text. -/
def Settled (reader : Reader) : Prop :=
  ∀ ⦃cs read rest⦄, reader cs = some (read, rest) →
    read ++ rest = cs ∧ ∀ after, reader (read ++ after) = some (read, after)

/-- Reads at least one character, if it reads. -/
def Moves (reader : Reader) : Prop :=
  ∀ ⦃cs read rest⦄, reader cs = some (read, rest) → read ≠ []

/-- What is read stays the same when the text goes on, if a character that is `ok` comes next. -/
def StaysBefore (ok : Char → Bool) (reader : Reader) : Prop :=
  ∀ ⦃cs read c rest⦄ after, ok c = true → reader cs = some (read, c :: rest) →
    reader (cs ++ after) = some (read, c :: rest ++ after)

/-- Reads only texts that start with such a character. -/
def StartsWith (ok : Char → Bool) (reader : Reader) : Prop :=
  ∀ ⦃cs⦄, (reader cs).isSome → cs.head?.any ok = true

variable {first second reader : Reader} {p ok : Char → Bool} {cs read rest : List Char}

theorem Stays.grows (h : Stays reader) : Grows reader := by
  intro cs after hsome
  obtain ⟨⟨read, rest⟩, hread⟩ := Option.isSome_iff_exists.mp hsome
  rw [h after hread]
  rfl

theorem Sound.cut (h : Sound reader) {after : List Char}
    (hread : reader (cs ++ after) = some (read, rest ++ after)) : read ++ rest = cs := by
  have happend := h hread
  rw [← List.append_assoc] at happend
  exact List.append_cancel_right happend

theorem Settled.sound (h : Settled reader) : Sound reader := fun _ _ _ hread => (h hread).1

theorem Settled.stays (h : Settled reader) : Stays reader := by
  intro cs read rest after hread
  obtain ⟨rfl, halone⟩ := h hread
  rw [List.append_assoc]
  exact halone (rest ++ after)

theorem Settled.cuts (h : Settled reader) : Cuts reader := by
  intro cs after read rest hread
  obtain rfl := h.sound.cut hread
  exact (h hread).2 rest

/-! ## One character after the other -/

theorem many_eq_ite : many p cs =
    if cs.takeWhile p = [] then none else some (cs.takeWhile p, cs.dropWhile p) := by
  rw [many, List.span_eq_takeWhile_dropWhile]
  cases cs.takeWhile p <;> rfl

theorem many_eq_some : many p cs = some (read, rest) ↔
    read ≠ [] ∧ read ++ rest = cs ∧ (∀ c ∈ read, p c = true) ∧ ∀ c ∈ rest.head?, p c = false := by
  rw [many_eq_ite]
  constructor
  · intro h
    split at h
    case isTrue => cases h
    case isFalse hne =>
      cases h
      refine ⟨hne, List.takeWhile_append_dropWhile, List.all_eq_true.mp List.all_takeWhile, ?_⟩
      intro c hc
      have hhead := List.head?_dropWhile_not p cs
      rw [hc] at hhead
      exact hhead
  · rintro ⟨hne, rfl, hread, hrest⟩
    have hstop : rest.takeWhile p = [] ∧ rest.dropWhile p = rest := by
      cases rest with
      | nil => exact ⟨rfl, rfl⟩
      | cons c rest => simp [hrest c rfl]
    rw [List.takeWhile_append_of_pos hread, List.dropWhile_append_of_pos hread, hstop.1, hstop.2,
      List.append_nil, if_neg hne]

theorem sound_many (p : Char → Bool) : Sound (many p) := by
  intro cs read rest h
  exact (many_eq_some.mp h).2.1

/-- Only the first character decides whether something is read. -/
theorem isSome_many : (many p cs).isSome = cs.head?.any p := by
  rw [many_eq_ite]
  cases cs with
  | nil => rfl
  | cons c cs => cases hc : p c <;> simp [hc]

theorem grows_of_head (h : ∀ cs, (reader cs).isSome = cs.head?.any p) : Grows reader := by
  intro cs after hsome
  rw [h] at hsome ⊢
  cases cs with
  | nil => cases hsome
  | cons c cs => exact hsome

theorem grows_many (p : Char → Bool) : Grows (many p) := grows_of_head fun _ => isSome_many

theorem cuts_many (p : Char → Bool) : Cuts (many p) := by
  intro cs after read rest h
  have happend := (sound_many p).cut h
  obtain ⟨hne, -, hread, hrest⟩ := many_eq_some.mp h
  refine many_eq_some.mpr ⟨hne, happend, hread, ?_⟩
  intro c hc
  apply hrest c
  rw [List.head?_append, hc]
  rfl

theorem oneOf_eq_some {chars : List Char} : oneOf chars cs = some (read, rest) ↔
    ∃ c ∈ chars, read = [c] ∧ cs = c :: rest := by
  cases cs with
  | nil => simp [oneOf]
  | cons d cs =>
    rw [oneOf]
    split
    case isTrue hd =>
      constructor
      · intro h
        cases h
        exact ⟨d, hd, rfl, rfl⟩
      · rintro ⟨c, -, rfl, hcs⟩
        cases hcs
        rfl
    case isFalse hd =>
      constructor
      · intro h
        cases h
      · rintro ⟨c, hc, -, hcs⟩
        cases hcs
        exact absurd hc hd

theorem settled_oneOf (chars : List Char) : Settled (oneOf chars) := by
  intro cs read rest h
  obtain ⟨c, hc, rfl, rfl⟩ := oneOf_eq_some.mp h
  exact ⟨rfl, fun _ => oneOf_eq_some.mpr ⟨c, hc, rfl, rfl⟩⟩

theorem sound_oneOf (chars : List Char) : Sound (oneOf chars) := (settled_oneOf chars).sound

theorem stays_oneOf (chars : List Char) : Stays (oneOf chars) := (settled_oneOf chars).stays

theorem cuts_oneOf (chars : List Char) : Cuts (oneOf chars) := (settled_oneOf chars).cuts

theorem exactly_eq_some {expected : List Char} : exactly expected cs = some (read, rest) ↔
    read = expected ∧ cs = expected ++ rest := by
  unfold exactly
  split
  case isTrue h =>
    obtain ⟨tail, rfl⟩ := List.isPrefixOf_iff_prefix.mp h
    rw [List.drop_left, Option.some.injEq, Prod.mk.injEq, List.append_cancel_left_eq]
    exact and_congr eq_comm Iff.rfl
  case isFalse h =>
    constructor
    · intro hnone
      cases hnone
    · rintro ⟨-, rfl⟩
      exact absurd (List.isPrefixOf_iff_prefix.mpr (List.prefix_append _ _)) h

theorem settled_exactly (expected : List Char) : Settled (exactly expected) := by
  intro cs read rest h
  obtain ⟨rfl, rfl⟩ := exactly_eq_some.mp h
  exact ⟨rfl, fun _ => exactly_eq_some.mpr ⟨rfl, rfl⟩⟩

theorem sound_exactly (expected : List Char) : Sound (exactly expected) :=
  (settled_exactly expected).sound

theorem stays_exactly (expected : List Char) : Stays (exactly expected) :=
  (settled_exactly expected).stays

theorem cuts_exactly (expected : List Char) : Cuts (exactly expected) :=
  (settled_exactly expected).cuts

/-! ## Put together -/

theorem andThen_eq_some : first.andThen second cs = some (read, rest) ↔
    ∃ a middle b, first cs = some (a, middle) ∧ second middle = some (b, rest) ∧
      read = a ++ b := by
  unfold andThen
  constructor
  · intro h
    obtain ⟨⟨a, middle⟩, hfirst, h⟩ := Option.bind_eq_some_iff.mp h
    obtain ⟨⟨b, left⟩, hsecond, h⟩ := Option.bind_eq_some_iff.mp h
    cases h
    exact ⟨a, middle, b, hfirst, hsecond, rfl⟩
  · rintro ⟨a, middle, b, hfirst, hsecond, rfl⟩
    refine Option.bind_eq_some_iff.mpr ⟨(a, middle), hfirst, ?_⟩
    exact Option.bind_eq_some_iff.mpr ⟨(b, rest), hsecond, rfl⟩

theorem Sound.andThen (hfirst : Sound first) (hsecond : Sound second) :
    Sound (first.andThen second) := by
  intro cs read rest h
  obtain ⟨a, middle, b, ha, hb, rfl⟩ := andThen_eq_some.mp h
  rw [List.append_assoc, hsecond hb, hfirst ha]

theorem Stays.andThen_grows (hfirst : Stays first) (hsecond : Grows second) :
    Grows (first.andThen second) := by
  intro cs after h
  obtain ⟨⟨read, rest⟩, h⟩ := Option.isSome_iff_exists.mp h
  obtain ⟨a, middle, b, ha, hb, rfl⟩ := andThen_eq_some.mp h
  have hmore := hsecond after (Option.isSome_of_eq_some hb)
  obtain ⟨⟨more, left⟩, hmore⟩ := Option.isSome_iff_exists.mp hmore
  have hwhole := andThen_eq_some.mpr ⟨a, _, more, hfirst after ha, hmore, rfl⟩
  exact Option.isSome_of_eq_some hwhole

theorem Cuts.andThen (hfirst : Cuts first) (hsecond : Cuts second) (hsound : Sound second) :
    Cuts (first.andThen second) := by
  intro cs after read rest h
  obtain ⟨a, middle, b, ha, hb, rfl⟩ := andThen_eq_some.mp h
  have hmiddle := hsound hb
  rw [← List.append_assoc] at hmiddle
  subst hmiddle
  exact andThen_eq_some.mpr ⟨a, _, b, hfirst ha, hsecond hb, rfl⟩

theorem orElse_eq_some : first.orElse second cs = some (read, rest) ↔
    first cs = some (read, rest) ∨ (first cs = none ∧ second cs = some (read, rest)) := by
  unfold orElse
  cases first cs <;> simp

theorem isSome_orElse :
    (first.orElse second cs).isSome = ((first cs).isSome || (second cs).isSome) := by
  unfold orElse
  cases first cs <;> simp

theorem Sound.orElse (hfirst : Sound first) (hsecond : Sound second) :
    Sound (first.orElse second) := by
  intro cs read rest h
  rcases orElse_eq_some.mp h with h | ⟨-, h⟩
  · exact hfirst h
  · exact hsecond h

theorem Grows.orElse (hfirst : Grows first) (hsecond : Grows second) :
    Grows (first.orElse second) := by
  intro cs after h
  rw [isSome_orElse, Bool.or_eq_true] at h ⊢
  exact h.imp (hfirst after) (hsecond after)

/-- The first reader must not read anything only because the text is cut off. -/
theorem Grows.none_of_append (h : Grows reader) {after : List Char}
    (hnone : reader (cs ++ after) = none) : reader cs = none := by
  rw [← Option.not_isSome_iff_eq_none] at hnone ⊢
  exact fun hsome => hnone (h after hsome)

theorem Cuts.orElse (hfirst : Cuts first) (hgrows : Grows first) (hsecond : Cuts second) :
    Cuts (first.orElse second) := by
  intro cs after read rest h
  rcases orElse_eq_some.mp h with h | ⟨hnone, h⟩
  · exact orElse_eq_some.mpr (.inl (hfirst h))
  · exact orElse_eq_some.mpr (.inr ⟨hgrows.none_of_append hnone, hsecond h⟩)

theorem notBefore_eq_some : reader.notBefore p cs = some (read, rest) ↔
    reader cs = some (read, rest) ∧ ∀ c ∈ rest.head?, p c = false := by
  unfold notBefore
  constructor
  · intro h
    obtain ⟨⟨a, left⟩, hread, h⟩ := Option.bind_eq_some_iff.mp h
    dsimp only at h
    split at h
    · cases h
    case isFalse hhead =>
      cases h
      refine ⟨hread, fun c hc => ?_⟩
      rw [hc] at hhead
      exact Bool.not_eq_true _ ▸ hhead
  · rintro ⟨hread, hhead⟩
    refine Option.bind_eq_some_iff.mpr ⟨(read, rest), hread, ?_⟩
    cases rest with
    | nil => rfl
    | cons c rest =>
      have hc := hhead c rfl
      simp [hc]

theorem Sound.notBefore (h : Sound reader) (p : Char → Bool) : Sound (reader.notBefore p) := by
  intro cs read rest hread
  exact h (notBefore_eq_some.mp hread).1

theorem Cuts.notBefore (h : Cuts reader) (p : Char → Bool) : Cuts (reader.notBefore p) := by
  intro cs after read rest hread
  obtain ⟨hread, hhead⟩ := notBefore_eq_some.mp hread
  refine notBefore_eq_some.mpr ⟨h hread, fun c hc => hhead c ?_⟩
  rw [List.head?_append, hc]
  rfl

theorem optional_eq_some : optional reader cs = some (read, rest) ↔
    reader cs = some (read, rest) ∨ (reader cs = none ∧ read = [] ∧ rest = cs) := by
  unfold optional
  cases reader cs with
  | none => simp [eq_comm]
  | some found => simp

theorem optional_many_eq_some : optional (many p) cs = some (read, rest) ↔
    read ++ rest = cs ∧ (∀ c ∈ read, p c = true) ∧ ∀ c ∈ rest.head?, p c = false := by
  have hnone : many p cs = none ↔ ∀ c ∈ cs.head?, p c = false := by
    rw [← Option.not_isSome_iff_eq_none, isSome_many]
    cases cs <;> simp
  rw [optional_eq_some, many_eq_some, hnone]
  constructor
  · rintro (⟨-, h⟩ | ⟨hcs, rfl, rfl⟩)
    · exact h
    · exact ⟨rfl, by simp, hcs⟩
  · rintro ⟨rfl, hread, hrest⟩
    cases read with
    | nil => exact .inr ⟨hrest, rfl, rfl⟩
    | cons c read => exact .inl ⟨List.cons_ne_nil _ _, rfl, hread, hrest⟩

theorem Sound.optional (h : Sound reader) : Sound (optional reader) := by
  intro cs read rest hread
  rcases optional_eq_some.mp hread with hread | ⟨-, rfl, rfl⟩
  · exact h hread
  · rfl

theorem Cuts.optional (h : Cuts reader) (hgrows : Grows reader) : Cuts (optional reader) := by
  intro cs after read rest hread
  rcases optional_eq_some.mp hread with hread | ⟨hnone, rfl, hrest⟩
  · exact optional_eq_some.mpr (.inl (h hread))
  · have hrest := List.append_cancel_right hrest
    exact optional_eq_some.mpr (.inr ⟨hgrows.none_of_append hnone, rfl, hrest⟩)

theorem grows_optional (reader : Reader) : Grows (optional reader) := fun _ _ _ => rfl

/-! ## Before certain characters -/

theorem Stays.staysBefore (h : Stays reader) (ok : Char → Bool) : StaysBefore ok reader :=
  fun _ _ _ _ after _ hread => h after hread

theorem staysBefore_many (p ok : Char → Bool) : StaysBefore ok (many p) := by
  intro cs read c rest after _ h
  obtain ⟨hne, rfl, hread, hrest⟩ := many_eq_some.mp h
  exact many_eq_some.mpr ⟨hne, (List.append_assoc _ _ _).symm, hread, hrest⟩

/-- Where the first character decides, it also decides when nothing is read. -/
theorem StaysBefore.optional (h : StaysBefore ok reader)
    (hhead : ∀ cs, (reader cs).isSome = cs.head?.any p) : StaysBefore ok (optional reader) := by
  intro cs read c rest after hc hread
  rcases optional_eq_some.mp hread with hread | ⟨hnone, rfl, hcs⟩
  · exact optional_eq_some.mpr (.inl (h after hc hread))
  · subst hcs
    refine optional_eq_some.mpr (.inr ⟨?_, rfl, rfl⟩)
    have hfirst := hhead (c :: rest)
    rw [hnone] at hfirst
    rw [← Option.not_isSome_iff_eq_none, hhead]
    simpa using hfirst.symm

theorem StaysBefore.andThen_grows (hfirst : StaysBefore ok first) (hstart : StartsWith ok second)
    (hsecond : Grows second) : Grows (first.andThen second) := by
  intro cs after h
  obtain ⟨⟨read, rest⟩, h⟩ := Option.isSome_iff_exists.mp h
  obtain ⟨a, middle, b, ha, hb, rfl⟩ := andThen_eq_some.mp h
  have hsome := Option.isSome_of_eq_some hb
  obtain ⟨⟨more, left⟩, hmore⟩ := Option.isSome_iff_exists.mp (hsecond after hsome)
  cases middle with
  | nil => exact absurd (hstart hsome) (by simp)
  | cons c middle =>
    have hc : ok c = true := hstart hsome
    have hwhole := andThen_eq_some.mpr ⟨a, _, more, hfirst after hc ha, hmore, rfl⟩
    exact Option.isSome_of_eq_some hwhole

theorem Stays.andThen_staysBefore (hfirst : Stays first) (hsecond : StaysBefore ok second) :
    StaysBefore ok (first.andThen second) := by
  intro cs read c rest after hc h
  obtain ⟨a, middle, b, ha, hb, rfl⟩ := andThen_eq_some.mp h
  exact andThen_eq_some.mpr ⟨a, _, b, hfirst after ha, hsecond after hc hb, rfl⟩

theorem StaysBefore.andThen {ok' : Char → Bool} (hfirst : StaysBefore ok first)
    (hstart : StartsWith ok second) (hsecond : StaysBefore ok' second) :
    StaysBefore ok' (first.andThen second) := by
  intro cs read c rest after hc h
  obtain ⟨a, middle, b, ha, hb, rfl⟩ := andThen_eq_some.mp h
  have hsome := Option.isSome_of_eq_some hb
  cases middle with
  | nil => exact absurd (hstart hsome) (by simp)
  | cons d middle =>
    have hd : ok d = true := hstart hsome
    exact andThen_eq_some.mpr ⟨a, _, b, hfirst after hd ha, hsecond after hc hb, rfl⟩

theorem isSome_oneOf (chars : List Char) (cs : List Char) :
    (oneOf chars cs).isSome = cs.head?.any (chars.contains ·) := by
  cases cs with
  | nil => rfl
  | cons c cs =>
    rw [oneOf]
    split
    case isTrue h => simpa using h
    case isFalse h => simpa using h

theorem startsWith_oneOf {chars : List Char} (h : chars.all ok = true) :
    StartsWith ok (oneOf chars) := by
  intro cs hsome
  obtain ⟨⟨read, rest⟩, hsome⟩ := Option.isSome_iff_exists.mp hsome
  obtain ⟨c, hc, -, rfl⟩ := oneOf_eq_some.mp hsome
  exact List.all_eq_true.mp h c hc

theorem startsWith_exactly {expected : List Char} (hne : expected ≠ []) :
    StartsWith (fun c => expected.head? = some c) (exactly expected) := by
  intro cs hsome
  obtain ⟨⟨read, rest⟩, hsome⟩ := Option.isSome_iff_exists.mp hsome
  obtain ⟨-, rfl⟩ := exactly_eq_some.mp hsome
  cases expected with
  | nil => exact absurd rfl hne
  | cons c expected => simp

theorem startsWith_many (p : Char → Bool) : StartsWith p (many p) := fun cs hsome => by
  rwa [← isSome_many]

theorem StartsWith.andThen (h : StartsWith ok first) (second : Reader) :
    StartsWith ok (first.andThen second) := by
  intro cs hsome
  obtain ⟨⟨read, rest⟩, hsome⟩ := Option.isSome_iff_exists.mp hsome
  obtain ⟨a, middle, b, ha, -, -⟩ := andThen_eq_some.mp hsome
  exact h (Option.isSome_of_eq_some ha)

theorem StartsWith.mono {ok' : Char → Bool} (h : StartsWith ok reader)
    (himp : ∀ c, ok c = true → ok' c = true) : StartsWith ok' reader := by
  intro cs hsome
  have hhead := h hsome
  cases cs with
  | nil => exact hhead
  | cons c cs => exact himp c hhead

theorem StartsWith.orElse (hfirst : StartsWith ok first) (hsecond : StartsWith ok second) :
    StartsWith ok (first.orElse second) := by
  intro cs hsome
  rw [isSome_orElse, Bool.or_eq_true] at hsome
  exact hsome.elim (fun h => hfirst h) (fun h => hsecond h)

theorem StartsWith.notBefore (h : StartsWith ok reader) (p : Char → Bool) :
    StartsWith ok (reader.notBefore p) := by
  intro cs hsome
  obtain ⟨⟨read, rest⟩, hsome⟩ := Option.isSome_iff_exists.mp hsome
  exact h (Option.isSome_of_eq_some (notBefore_eq_some.mp hsome).1)

theorem StartsWith.optional_andThen (hfirst : StartsWith ok first)
    (hsecond : StartsWith ok second) : StartsWith ok ((Reader.optional first).andThen second) := by
  intro cs hsome
  obtain ⟨⟨read, rest⟩, hsome⟩ := Option.isSome_iff_exists.mp hsome
  obtain ⟨a, middle, b, ha, hb, -⟩ := andThen_eq_some.mp hsome
  rcases optional_eq_some.mp ha with ha | ⟨-, -, rfl⟩
  · exact hfirst (Option.isSome_of_eq_some ha)
  · exact hsecond (Option.isSome_of_eq_some hb)

/-! ## At least one character -/

theorem moves_many (p : Char → Bool) : Moves (many p) := by
  intro cs read rest h
  exact (many_eq_some.mp h).1

theorem moves_oneOf (chars : List Char) : Moves (oneOf chars) := by
  intro cs read rest h
  obtain ⟨c, -, rfl, -⟩ := oneOf_eq_some.mp h
  exact List.cons_ne_nil c []

theorem moves_exactly {expected : List Char} (hne : expected ≠ []) : Moves (exactly expected) := by
  intro cs read rest h
  obtain ⟨rfl, -⟩ := exactly_eq_some.mp h
  exact hne

theorem Moves.andThen (h : Moves first) (second : Reader) : Moves (first.andThen second) := by
  intro cs read rest hread
  obtain ⟨a, middle, b, ha, -, rfl⟩ := andThen_eq_some.mp hread
  exact List.append_ne_nil_of_left_ne_nil (h ha) b

theorem Moves.andThen_second (h : Moves second) (first : Reader) :
    Moves (first.andThen second) := by
  intro cs read rest hread
  obtain ⟨a, middle, b, -, hb, rfl⟩ := andThen_eq_some.mp hread
  exact List.append_ne_nil_of_right_ne_nil a (h hb)

theorem Moves.orElse (hfirst : Moves first) (hsecond : Moves second) :
    Moves (first.orElse second) := by
  intro cs read rest h
  rcases orElse_eq_some.mp h with h | ⟨-, h⟩
  · exact hfirst h
  · exact hsecond h

theorem Moves.notBefore (h : Moves reader) (p : Char → Bool) : Moves (reader.notBefore p) := by
  intro cs read rest hread
  exact h (notBefore_eq_some.mp hread).1

end Calculator.Grammar.Reader
