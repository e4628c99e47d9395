import Calculator.Proofs.Grammar.Lexing
import Calculator.Proofs.Number.Digits

/-!
# Whole numbers in a source

The digits of a number are one token, also in groups of three. The comma in front of a group is no
other comma than the one between two items, so what follows the number decides. No operator and no
bracket goes on with a number, and a comma does not if a blank comes next.
-/

namespace Calculator.Grammar

open Reader Text

/-! ## What follows a number -/

/-- The text goes on with no group, no digit, no point and no name. -/
structure Ends (after : List Char) : Prop where
  groups : takeGroups after = ([], after)
  head : ∀ c ∈ after.head?, isDecimal c = false ∧ isWord c = false ∧ c ≠ '.'

/-- The end, an operator or a bracket, or a comma with a blank. -/
inductive Follows : List Char → Prop
  | nil : Follows []
  | mark {kind : Terminal} {chars : List Char} (hmark : (kind, chars) ∈ operators)
      (hkind : kind ≠ .comma) (cs : List Char) : Follows (chars ++ cs)
  | comma {blank : Char} (hblank : isInlineBlank blank = true) (cs : List Char) :
      Follows (',' :: blank :: cs)

theorem not_isDecimal_of_blank {c : Char} (h : isInlineBlank c = true) : isDecimal c = false := by
  simp only [isInlineBlank, Bool.or_eq_true, decide_eq_true_eq] at h
  rcases h with (rfl | rfl) | rfl <;> decide

theorem Follows.ends {after : List Char} (h : Follows after) : Ends after := by
  cases h with
  | nil => exact ⟨rfl, by simp⟩
  | @mark kind chars hmark hkind cs =>
    have htable : ∀ op ∈ operators, op.1 ≠ .comma → op.2.head?.any fun c =>
        !isComma c && !isDecimal c && !isWord c && c ≠ '.' := by
      decide
    obtain ⟨c, hhead, hc⟩ := (Option.any_eq_true _ _).mp (htable _ hmark hkind)
    obtain ⟨others, rfl⟩ := List.head?_eq_some_iff.mp hhead
    simp only [Bool.and_eq_true, Bool.not_eq_true', decide_eq_true_eq] at hc
    refine ⟨takeGroups_of_apart hc.1.1.1 _, fun d hd => ?_⟩
    cases hd
    exact ⟨hc.1.1.2, hc.1.2, hc.2⟩
  | @comma blank hblank cs =>
    have hdecimal := not_isDecimal_of_blank hblank
    constructor
    · rcases cs with _ | ⟨y, _ | ⟨z, cs⟩⟩
      · rfl
      · rfl
      · simp [takeGroups, hdecimal]
    · simp only [List.head?_cons, Option.mem_some_iff]
      rintro c rfl
      decide

/-! ## The readers of numbers -/

variable {after : List Char} {c : Char} {cs : List Char}

theorem Ends.many_eq_none (h : Ends after) {p : Char → Bool}
    (hp : ∀ c, p c = true → isDecimal c = true) : many p after = none := by
  rw [Option.eq_none_iff_forall_not_mem]
  rintro ⟨read, rest⟩ hread
  obtain ⟨hne, rfl, hread, -⟩ := many_eq_some.mp hread
  obtain ⟨c, read, rfl⟩ := List.exists_cons_of_ne_nil hne
  have hc := (h.head c rfl).1
  rw [hp c (hread c List.mem_cons_self)] at hc
  cases hc

theorem Ends.oneOf_eq_none (h : Ends after) {chars : List Char}
    (hchars : chars.all fun c => isWord c || c = '.') : oneOf chars after = none := by
  cases after with
  | nil => rfl
  | cons c after =>
    obtain ⟨-, hword, hpoint⟩ := h.head c rfl
    refine if_neg fun hmem => ?_
    have hc := List.all_eq_true.mp hchars c hmem
    rw [hword, Bool.false_or] at hc
    exact hpoint (of_decide_eq_true hc)

theorem Ends.readFraction_eq_none (h : Ends after) : readFraction after = none := by
  rw [readFraction, andThen, h.oneOf_eq_none (by decide)]
  rfl

theorem Ends.readExponent_eq_none (h : Ends after) : readExponent after = none := by
  rw [readExponent, andThen, h.oneOf_eq_none (by decide)]
  rfl

/-- The readers of numbers in other bases need a zero and something after it. -/
theorem Ends.not_radix_zero (h : Ends after) :
    ∀ r ∈ readers.take 3, r.2 ('0' :: after) = none := by
  have hzero (second : Reader) (hsecond : second after = none) :
      (oneOf ['0']).andThen second ('0' :: after) = none := by
    simp [andThen, oneOf, hsecond]
  have hradix {letters : List Char} (hletters : letters.all fun c => isWord c || c = '.')
      (p : Char → Bool) : readRadix letters p ('0' :: after) = none :=
    hzero _ (by rw [andThen, h.oneOf_eq_none hletters]; rfl)
  have hbare : readBareOctal ('0' :: after) = none := by
    rw [readBareOctal, notBefore, hzero _ (h.many_eq_none fun c => isDecimal_of_octal)]
    rfl
  have hoct : readOct ('0' :: after) = none := by
    rw [readOct, orElse, hradix (by decide), hbare]
  simp only [readers, List.cons_append, List.take_succ_cons, List.take_zero, List.forall_mem_cons]
  exact ⟨hradix (by decide) _, hradix (by decide) _, hoct, List.forall_mem_nil _⟩

/-- The digits of a number win if nothing in front of them or behind them makes them another one. -/
theorem readNext_whole (hdigit : ∃ d < 10, c = Nat.digitChar d) (hzero : c = '0' → cs = [])
    (hafter : Ends after) (hwhole : readWhole (c :: (cs ++ after)) = some (c :: cs, after)) :
    readNext (c :: (cs ++ after)) = some (some .int, c :: cs, after) := by
  obtain ⟨d, hd, rfl⟩ := hdigit
  have hstarts : ∀ d < 10, isDecimal d.digitChar = true ∧
      starts (some .boolean) d.digitChar = false ∧ starts (some .string) d.digitChar = false := by
    decide
  obtain ⟨hdecimal, hboolean, hstring⟩ := hstarts d hd
  have hradix : ∀ r ∈ readers.take 3, r.2 (d.digitChar :: (cs ++ after)) = none := by
    by_cases hc : d.digitChar = '0'
    · rw [hzero hc, hc]
      exact hafter.not_radix_zero
    · have hother : ∀ r ∈ readers.take 3, starts r.1 d.digitChar = false := by
        simp only [readers, List.cons_append, List.take_succ_cons, List.take_zero,
          List.forall_mem_cons]
        exact ⟨decide_eq_false hc, decide_eq_false hc, decide_eq_false hc, List.forall_mem_nil _⟩
      exact fun r hr => reader_eq_none (List.mem_of_mem_take hr) (hother r hr) _
  have hfloat : readFloat (d.digitChar :: (cs ++ after)) = none := by
    rw [readFloat_of_decimal hdecimal, andThen, hwhole]
    simp [hafter.readFraction_eq_none]
  have hscientific : readScientific (d.digitChar :: (cs ++ after)) = none := by
    simp [readScientific, orElse, andThen, hfloat, hwhole, hafter.readExponent_eq_none]
  have hbooleans : readBoolean (d.digitChar :: (cs ++ after)) = none :=
    reader_eq_none (r := (some .boolean, readBoolean)) (by simp [readers]) hboolean _
  have hstrings : readString (d.digitChar :: (cs ++ after)) = none :=
    reader_eq_none (r := (some .string, readString)) (by simp [readers]) hstring _
  refine readNext_of_none 7 rfl ?_ hwhole
  rw [show readers.take 7 = readers.take 3 ++ (readers.drop 3).take 4 from rfl]
  refine List.forall_mem_append.mpr ⟨hradix, ?_⟩
  simp [readers, hscientific, hfloat, hbooleans, hstrings]

/-! ## Groups of digits -/

/-- A comma before every group of three, counted from the end. -/
def grouped : List Char → List Char
  | [] => []
  | c :: cs => if cs ≠ [] ∧ cs.length % 3 = 0 then c :: ',' :: grouped cs else c :: grouped cs

/-- The groups behind the first digits. -/
def groupsOf (digits : List Char) : List Char :=
  if digits = [] then [] else ',' :: grouped digits

theorem grouped_cons_of_dvd (c : Char) (h : cs.length % 3 = 0) :
    grouped (c :: cs) = c :: groupsOf cs := by
  cases cs with
  | nil => rfl
  | cons => rw [grouped, if_pos ⟨List.cons_ne_nil _ _, h⟩, groupsOf, if_neg (List.cons_ne_nil _ _)]

theorem grouped_cons (c : Char) (h : cs.length % 3 ≠ 0) : grouped (c :: cs) = c :: grouped cs := by
  rw [grouped, if_neg fun hboth => h hboth.2]

theorem groupsOf_three (x y z : Char) (h : cs.length % 3 = 0) :
    groupsOf (x :: y :: z :: cs) = ',' :: x :: y :: z :: groupsOf cs := by
  rw [groupsOf, if_neg (List.cons_ne_nil _ _), grouped_cons x (by simp; omega),
    grouped_cons y (by simp; omega), grouped_cons_of_dvd z h]

/-- In front of the groups there are one to three digits. -/
theorem exists_first (h : cs ≠ []) : ∃ first rest, cs = first ++ rest ∧ first ≠ [] ∧
    rest.length % 3 = 0 ∧ grouped cs = first ++ groupsOf rest := by
  induction cs with
  | nil => exact absurd rfl h
  | cons c cs ih =>
    by_cases hdvd : cs.length % 3 = 0
    · exact ⟨[c], cs, rfl, List.cons_ne_nil _ _, hdvd, grouped_cons_of_dvd c hdvd⟩
    · obtain ⟨first, rest, rfl, -, hrest, hgrouped⟩ := ih fun hnil => hdvd (by rw [hnil]; rfl)
      refine ⟨c :: first, rest, rfl, List.cons_ne_nil _ _, hrest, ?_⟩
      rw [grouped_cons c hdvd, hgrouped, List.cons_append]

/-- By induction on the groups. What follows the last one is open. -/
theorem takeGroups_groupsOf (hafter : Ends after) : ∀ {digits : List Char},
    (∀ c ∈ digits, isDecimal c = true) → digits.length % 3 = 0 →
      takeGroups (groupsOf digits ++ after) = (groupsOf digits, after)
  | [], _, _ => hafter.groups
  | [_], _, h | [_, _], _, h => by simp at h
  | x :: y :: z :: digits, hdigits, h => by
    have hrest : digits.length % 3 = 0 := by
      rw [← h]
      exact (Nat.add_mod_right digits.length 3).symm
    have hother : ∀ c ∈ digits, isDecimal c = true := fun c hc => hdigits c (by simp [hc])
    have hgroups := takeGroups_groupsOf hafter hother hrest
    have hhead : (groupsOf digits ++ after).head?.any isDecimal = false := by
      cases digits with
      | nil =>
        rw [Option.any_eq_false]
        exact fun c hc => by simpa using (hafter.head c hc).1
      | cons => rfl
    have hgroup : (isDecimal x && isDecimal y && isDecimal z &&
        !(groupsOf digits ++ after).head?.any isDecimal) = true := by
      rw [hhead, hdigits x (by simp), hdigits y (by simp), hdigits z (by simp)]
      rfl
    rw [groupsOf_three x y z hrest]
    simp only [List.cons_append]
    rw [takeGroups, if_pos hgroup, hgroups]

theorem filter_grouped (h : ∀ c ∈ cs, c ≠ ',') : (grouped cs).filter (· ≠ ',') = cs := by
  induction cs with
  | nil => rfl
  | cons c cs ih =>
    obtain ⟨hc, hcs⟩ := List.forall_mem_cons.mp h
    rw [grouped]
    split <;> simpa [hc] using ih hcs

theorem exists_grouped_cons (c : Char) (cs : List Char) : ∃ rest, grouped (c :: cs) = c :: rest ∧
    (cs = [] → rest = []) := by
  rw [grouped]
  split
  case isTrue h => exact ⟨_, rfl, fun hnil => absurd hnil h.1⟩
  case isFalse => exact ⟨_, rfl, fun hnil => by rw [hnil]; rfl⟩

theorem readWhole_grouped {digits : List Char} (hne : digits ≠ [])
    (hdigits : ∀ c ∈ digits, isDecimal c = true) (hafter : Ends after) :
    readWhole (grouped digits ++ after) = some (grouped digits, after) := by
  obtain ⟨first, rest, rfl, hfirst, hdvd, hgrouped⟩ := exists_first hne
  obtain ⟨hdecimal, hrest⟩ := List.forall_mem_append.mp hdigits
  have hgroups := takeGroups_groupsOf hafter hrest hdvd
  have hmany : many isDecimal (first ++ (groupsOf rest ++ after)) =
      some (first, groupsOf rest ++ after) := by
    refine many_eq_some.mpr ⟨hfirst, rfl, hdecimal, fun c hc => ?_⟩
    cases rest with
    | nil => exact (hafter.head c hc).1
    | cons => cases hc; decide
  rw [hgrouped, List.append_assoc]
  exact readWhole_eq_some.mpr ⟨_, _, hmany, by rw [hgroups], by rw [hgroups]⟩

theorem readWhole_plain {digits : List Char} (hne : digits ≠ [])
    (hdigits : ∀ c ∈ digits, isDecimal c = true) (hafter : Ends after) :
    readWhole (digits ++ after) = some (digits, after) := by
  have hmany : many isDecimal (digits ++ after) = some (digits, after) :=
    many_eq_some.mpr ⟨hne, rfl, hdigits, fun c hc => (hafter.head c hc).1⟩
  refine readWhole_eq_some.mpr ⟨_, _, hmany, ?_, ?_⟩ <;> rw [hafter.groups]
  rw [List.append_nil]

/-- The two ways to write the digits of a number. -/
inductive Digits (n : Nat) : List Char → Prop
  | plain : Digits n (Nat.toDigits 10 n)
  | grouped : Digits n (grouped (Nat.toDigits 10 n))

theorem readNext_of_digits {n : Nat} {digits : List Char} (h : Digits n digits)
    (hafter : Ends after) : readNext (digits ++ after) = some (some .int, digits, after) := by
  have hdecimal : ∀ c ∈ Nat.toDigits 10 n, isDecimal c = true := fun c => isDecimal_of_mem_toDigits
  obtain ⟨c, cs, hcs, hzero⟩ : ∃ c cs, Nat.toDigits 10 n = c :: cs ∧ (c = '0' → cs = []) := by
    rcases Nat.eq_zero_or_pos n with rfl | hpos
    · exact ⟨'0', [], rfl, fun _ => rfl⟩
    · obtain ⟨c, cs, hcs, hc⟩ := toDigits_head hpos
      exact ⟨c, cs, hcs, fun h => absurd h hc⟩
  have hdigit : ∃ d < 10, c = Nat.digitChar d :=
    mem_toDigits (by decide) n c (hcs ▸ List.mem_cons_self)
  have hne : Nat.toDigits 10 n ≠ [] := Nat.toDigits_ne_nil
  cases h with
  | plain =>
    have hwhole := readWhole_plain hne hdecimal hafter
    rw [hcs] at hwhole ⊢
    exact readNext_whole hdigit hzero hafter hwhole
  | grouped =>
    have hwhole := readWhole_grouped hne hdecimal hafter
    obtain ⟨rest, hgrouped, hrest⟩ := exists_grouped_cons c cs
    rw [hcs, hgrouped] at hwhole ⊢
    exact readNext_whole hdigit (hrest ∘ hzero) hafter hwhole

/-! ## A token in front of a text -/

/-- The same tokens further on. -/
def Lexed.shift (offset : Nat) (lexed : Lexed) : Lexed :=
  ⟨lexed.tokens.map (Token.shift offset), lexed.stuck.map (· + offset)⟩

/-- One step of the lexer. -/
theorem lexFrom_succ (fuel index : Nat) {cs : List Char} (hne : cs ≠ []) :
    lexFrom (fuel + 1) index cs =
      match readNext cs with
      | none => ⟨[], some index⟩
      | some (none, read, rest) => lexFrom fuel (index + read.length) rest
      | some (some kind, read, rest) =>
        (lexFrom fuel (index + read.length) rest).cons ⟨kind, String.ofList read, index⟩ := by
  rw [lexFrom]
  · rcases readNext cs with _ | ⟨_ | kind, read, rest⟩ <;> rfl
  · exact hne

theorem lexFrom_shift (fuel index offset : Nat) (cs : List Char) :
    lexFrom fuel (index + offset) cs = (lexFrom fuel index cs).shift offset := by
  induction fuel generalizing index cs with
  | zero => cases cs <;> rfl
  | succ fuel ih =>
    cases cs with
    | nil => rfl
    | cons c cs =>
      rw [lexFrom_succ _ _ (List.cons_ne_nil c cs), lexFrom_succ _ _ (List.cons_ne_nil c cs)]
      rcases readNext (c :: cs) with _ | ⟨_ | kind, read, rest⟩
      · rfl
      · dsimp only
        rw [Nat.add_right_comm, ih]
      · dsimp only
        rw [Nat.add_right_comm, ih]
        rfl

/-- More fuel than there are characters changes nothing. -/
theorem lexFrom_fuel {fuel : Nat} (index : Nat) {cs : List Char} (h : cs.length ≤ fuel) :
    lexFrom fuel index cs = lexFrom cs.length index cs := by
  induction hlength : cs.length using Nat.strongRecOn generalizing fuel index cs with
  | ind length ih =>
    subst hlength
    cases cs with
    | nil => cases fuel <;> rfl
    | cons c cs =>
      obtain ⟨fuel, rfl⟩ : ∃ k, fuel = k + 1 := Nat.exists_eq_add_one.mpr (by simp at h; omega)
      rw [List.length_cons, lexFrom_succ _ _ (List.cons_ne_nil c cs),
        lexFrom_succ _ _ (List.cons_ne_nil c cs)]
      rcases hread : readNext (c :: cs) with _ | ⟨kind, read, rest⟩
      · rfl
      · have hshorter := length_of_readNext hread
        rw [List.length_cons] at h hshorter
        have hleft := ih rest.length hshorter (index + read.length)
          (by omega : rest.length ≤ fuel) rfl
        have hright := ih rest.length hshorter (index + read.length)
          (by omega : rest.length ≤ cs.length) rfl
        cases kind <;> dsimp only <;> rw [hleft, hright]

/-- What follows a token is read as it is alone. -/
theorem lex_append {text after : String} {kind : Terminal}
    (h : readNext (text.toList ++ after.toList) = some (some kind, text.toList, after.toList)) :
    lex (text ++ after) = ((lex after).shift text.length).cons ⟨kind, text, 0⟩ := by
  have hne : text.toList ++ after.toList ≠ [] := fun hnil =>
    moves_readNext h (List.append_eq_nil_iff.mp hnil).1
  obtain ⟨fuel, hfuel⟩ : ∃ k, (text.toList ++ after.toList).length = k + 1 :=
    Nat.exists_eq_add_one.mpr (List.length_pos_iff.mpr hne)
  have hshorter := length_of_readNext h
  unfold lex
  rw [String.toList_append]
  dsimp only
  rw [hfuel, lexFrom_succ _ _ hne, h]
  dsimp only
  rw [lexFrom_fuel _ (by omega), lexFrom_shift, String.ofList_toList, String.length_toList]

end Calculator.Grammar
