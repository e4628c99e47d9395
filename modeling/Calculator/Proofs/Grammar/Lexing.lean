import Calculator.Proofs.Grammar.Piece

/-!
# Runs of the lexer

A run reads one piece after the other. It can be taken apart between two tokens, moved to another
place and cut off behind its last token.
-/

namespace Calculator

/-- The same piece further on in a source. -/
def Site.shift (offset : Nat) (site : Site) : Site := { site with index := site.index + offset }

namespace Grammar

open Calculator.Text

def Token.shift (offset : Nat) (token : Token) : Token :=
  { token with site := token.site.shift offset }

/-- The place after its last character. -/
def Token.stop (token : Token) : Nat := token.site.index + token.site.text.length

@[simp]
theorem Token.stop_shift (offset : Nat) (token : Token) :
    (token.shift offset).stop = token.stop + offset := by
  simp only [Token.stop, Token.shift, Site.shift]
  omega

def Token.isBareOctal (token : Token) : Bool :=
  token.kind = .int && Grammar.isBareOctal token.site.text.toList

/-- The token that a piece is, unless it is dropped. -/
def tokenOf (kind : Option Terminal) (read : List Char) (index : Nat) : List Token :=
  (kind.map fun kind => ⟨kind, String.ofList read, index⟩).toList

/-- From a text that starts at an index to its first tokens and what is left after them. -/
inductive Lexes : Nat → List Char → List Token → List Char → Prop
  | done {index cs} : Lexes index cs [] cs
  | next {index cs kind read rest tokens left} : readNext cs = some (kind, read, rest) →
      Lexes (index + read.length) rest tokens left →
      Lexes index cs (tokenOf kind read index ++ tokens) left

variable {index fuel : Nat} {cs left : List Char} {tokens : List Token}

/-! ## The lexer -/

theorem lexes_of_lexFrom (h : lexFrom fuel index cs = ⟨tokens, none⟩) :
    Lexes index cs tokens [] := by
  fun_induction lexFrom fuel index cs generalizing tokens with
  | case1 => cases h; exact .done
  | case2 => cases h
  | case3 => cases h
  | case4 fuel index cs _ read rest _ hread =>
    rename_i ih
    exact .next hread (ih h)
  | case5 fuel index cs _ read rest _ kind hread =>
    rename_i ih
    obtain ⟨rfl, hstuck⟩ := Lexed.mk.inj h
    exact .next hread (ih (congrArg (Lexed.mk _) hstuck))

theorem length_of_readNext {kind : Option Terminal} {read rest : List Char}
    (h : readNext cs = some (kind, read, rest)) : rest.length < cs.length := by
  have hread := List.length_pos_iff.mpr (moves_readNext h)
  have hlength := congrArg List.length (sound_readNext h)
  rw [List.length_append] at hlength
  omega

theorem lexFrom_of_lexes (h : Lexes index cs tokens []) (hfuel : cs.length ≤ fuel) :
    lexFrom fuel index cs = ⟨tokens, none⟩ := by
  generalize hleft : ([] : List Char) = left at h
  induction h generalizing fuel with
  | done =>
    subst hleft
    cases fuel <;> rfl
  | @next index cs kind read rest tokens left hread hrest ih =>
    have hshorter := length_of_readNext hread
    cases fuel with
    | zero => omega
    | succ fuel =>
      cases cs with
      | nil => cases hshorter
      | cons c cs =>
        rw [lexFrom, hread]
        simp only
        rw [ih (by omega) hleft]
        cases kind <;> rfl
        exact List.cons_ne_nil c cs

theorem lex_eq_iff {source : String} :
    lex source = ⟨tokens, none⟩ ↔ Lexes 0 source.toList tokens [] :=
  ⟨lexes_of_lexFrom, fun h => lexFrom_of_lexes h (Nat.le_refl _)⟩

/-! ## Taking a run apart -/

namespace Lexes

theorem suffix (h : Lexes index cs tokens left) : left <:+ cs := by
  induction h with
  | done => exact List.suffix_rfl
  | next hread hrest ih =>
    rw [← sound_readNext hread]
    exact ih.trans (List.suffix_append _ _)

/-- The first piece before the end of a run stands before that end. -/
theorem first_read {kind : Option Terminal} {read rest after : List Char}
    (h : Lexes index rest tokens after) (hread : readNext (cs ++ after) = some (kind, read, rest)) :
    ∃ others, cs = read ++ others ∧ rest = others ++ after := by
  obtain ⟨others, rfl⟩ := h.suffix
  have htext := sound_readNext hread
  rw [← List.append_assoc] at htext
  exact ⟨others, (List.append_cancel_right htext).symm, rfl⟩

theorem eq_nil (h : Lexes index cs tokens left) (hleft : left = cs) : tokens = [] := by
  cases h with
  | done => rfl
  | next hread hrest =>
    have hshorter := length_of_readNext hread
    have hle := hrest.suffix.length_le
    rw [hleft] at hle
    omega

/-- A run over some tokens and more is a run over those and then one over the others. -/
theorem split {a b : List Token} (h : Lexes index cs (a ++ b) left) :
    ∃ read rest, cs = read ++ rest ∧ Lexes index cs a rest ∧
      Lexes (index + read.length) rest b left ∧
      ∀ token ∈ a.getLast?, token.stop = index + read.length := by
  generalize htokens : a ++ b = tokens at h
  induction h generalizing a with
  | @done index cs =>
    obtain ⟨rfl, rfl⟩ := List.append_eq_nil_iff.mp htokens
    exact ⟨[], cs, rfl, .done, .done, by simp⟩
  | @next index cs kind read rest tokens left hread hrest ih =>
    have hcs := sound_readNext hread
    -- The rest taken apart, with the first piece put before it again.
    have hsplit {others : List Token} (htokens : others ++ b = tokens) : ∃ more last,
        cs = (read ++ more) ++ last ∧ Lexes index cs (tokenOf kind read index ++ others) last ∧
          Lexes (index + (read ++ more).length) last b left ∧
          ∀ token ∈ others.getLast?, token.stop = index + (read ++ more).length := by
      obtain ⟨more, last, rfl, hfirst, hsecond, hlast⟩ := ih htokens
      simp only [List.length_append, ← Nat.add_assoc, List.append_assoc]
      exact ⟨more, last, hcs.symm, .next hread hfirst, hsecond, hlast⟩
    cases a with
    | nil =>
      refine ⟨[], cs, rfl, .done, ?_, by simp⟩
      rw [List.nil_append] at htokens
      subst htokens
      exact .next hread hrest
    | cons token a =>
      cases kind with
      | none =>
        obtain ⟨more, last, htext, hfirst, hsecond, hlast⟩ := hsplit htokens
        exact ⟨read ++ more, last, htext, hfirst, hsecond, hlast⟩
      | some kind =>
        obtain ⟨rfl, hothers⟩ := List.cons.inj htokens
        cases a with
        | nil =>
          obtain rfl : b = tokens := hothers
          refine ⟨read, rest, hcs.symm, .next hread .done, hrest, fun last hlast => ?_⟩
          cases hlast
          simp [Token.stop]
        | cons second a =>
          obtain ⟨more, last, htext, hfirst, hsecond, hlast⟩ := hsplit hothers
          exact ⟨read ++ more, last, htext, hfirst, hsecond, hlast⟩

/-- What is dropped before the first token can be left out. -/
theorem trim {token : Token} (h : Lexes index cs (token :: tokens) left) :
    ∃ blank text, cs = blank ++ text ∧ token.site.index = index + blank.length ∧
      Lexes (index + blank.length) text (token :: tokens) left := by
  generalize htokens : token :: tokens = all at h
  induction h with
  | done => cases htokens
  | @next index cs kind read rest others left hread hrest ih =>
    cases kind with
    | none =>
      obtain ⟨blank, text, rfl, hindex, htext⟩ := ih htokens
      refine ⟨read ++ blank, text, ?_, ?_, ?_⟩
      · rw [List.append_assoc, sound_readNext hread]
      · rw [List.length_append, ← Nat.add_assoc]
        exact hindex
      · rw [List.length_append, ← Nat.add_assoc]
        exact htext
    | some kind =>
      obtain ⟨rfl, rfl⟩ := List.cons.inj htokens
      exact ⟨[], cs, rfl, rfl, .next hread hrest⟩

/-- The same text at another place has the same tokens at other places. -/
theorem unshift {offset : Nat} (h : Lexes (index + offset) cs tokens left) :
    ∃ others, tokens = others.map (Token.shift offset) ∧ Lexes index cs others left := by
  generalize hstart : index + offset = start at h
  induction h generalizing index with
  | done => exact ⟨[], rfl, .done⟩
  | @next start cs kind read rest tokens left hread hrest ih =>
    subst hstart
    obtain ⟨others, rfl, hothers⟩ := ih (Nat.add_right_comm index read.length offset)
    refine ⟨tokenOf kind read index ++ others, ?_, .next hread hothers⟩
    rw [List.map_append]
    cases kind <;> rfl

/-- Each token is what is read first from the text at its place. -/
theorem exists_read (h : Lexes index cs tokens left) : ∀ token ∈ tokens, ∃ before read rest,
    cs = before ++ (read ++ rest) ∧ left <:+ rest ∧
      readNext (read ++ rest) = some (some token.kind, read, rest) ∧
      token.site = ⟨String.ofList read, index + before.length⟩ := by
  induction h with
  | done => exact fun token htoken => absurd htoken List.not_mem_nil
  | @next index cs kind read rest tokens left hread hrest ih =>
    obtain rfl := sound_readNext hread
    intro token htoken
    rcases List.mem_append.mp htoken with htoken | htoken
    · cases kind with
      | none => cases htoken
      | some kind =>
        obtain rfl := List.mem_singleton.mp htoken
        exact ⟨[], read, rest, rfl, hrest.suffix, hread, rfl⟩
    · obtain ⟨before, inside, after, rfl, hleft, hinside, hsite⟩ := ih token htoken
      refine ⟨read ++ before, inside, after, (List.append_assoc ..).symm, hleft, hinside, ?_⟩
      rw [List.length_append, ← Nat.add_assoc]
      exact hsite

theorem within (h : Lexes index cs tokens left) : ∀ token ∈ tokens, ∃ before after,
    cs = before ++ token.site.text.toList ++ after ∧
      token.site.index = index + before.length := by
  intro token htoken
  obtain ⟨before, read, rest, rfl, -, -, hsite⟩ := h.exists_read token htoken
  exact ⟨before, rest, by simp [hsite], by rw [hsite]⟩

theorem ordered (h : Lexes index cs tokens left) :
    tokens.Pairwise fun a b => a.stop ≤ b.site.index := by
  induction h with
  | done => exact .nil
  | @next index cs kind read rest tokens left hread hrest ih =>
    cases kind with
    | none => exact ih
    | some kind =>
      refine List.pairwise_cons.mpr ⟨fun token hmem => ?_, ih⟩
      obtain ⟨before, after, -, hindex⟩ := hrest.within token hmem
      simp only [Token.stop, String.length_ofList]
      omega

theorem filled (h : Lexes index cs tokens left) :
    ∀ token ∈ tokens, token.site.index < token.stop := by
  intro token htoken
  obtain ⟨_, _, _, -, -, hread, hsite⟩ := h.exists_read token htoken
  simpa [Token.stop, hsite] using List.length_pos_iff.mpr (moves_readNext hread)

/-! ## Cutting off the rest -/

theorem inversion (h : Lexes index cs tokens left) (hne : cs ≠ left) :
    ∃ kind read rest others, readNext cs = some (kind, read, rest) ∧
      Lexes (index + read.length) rest others left := by
  cases h with
  | done => exact absurd rfl hne
  | next hread hrest => exact ⟨_, _, _, _, hread, hrest⟩

/-- What comes after torn digits reads on over the cut. -/
theorem not_tears {rest after : List Char} (h : Lexes index (rest ++ after) tokens after) :
    ¬ TearsGroup rest after := by
  rintro ⟨x, y, z, d, later, rfl, rfl, hx, hy, hz, hd⟩
  have hlonger (start : List Char) (hne : start ≠ []) : start ++ d :: later ≠ d :: later := by
    simpa using hne
  obtain ⟨_, _, _, _, hcomma, hdigits⟩ := h.inversion (hlonger _ (List.cons_ne_nil _ _))
  rw [readNext_comma hcomma] at hdigits
  obtain ⟨_, read, rest, _, hread, hrest⟩ :=
    hdigits.inversion (hlonger [x, y, z] (List.cons_ne_nil _ _))
  have hread : readNext ([x, y, z, d] ++ later) = some (_, read, rest) := hread
  -- The three digits after the comma and the one behind the cut are read together.
  have htakes : 4 ≤ read.length := takesDigits_readNext (by simp [*]) hread
  have hread := congrArg List.length (sound_readNext hread)
  have hrest := hrest.suffix.length_le
  simp only [List.length_append, List.length_cons, List.length_nil] at hread hrest
  omega

theorem cut {after : List Char} (h : Lexes index (cs ++ after) tokens after)
    (hlast : ∀ token ∈ tokens.getLast?, token.isBareOctal = false) : Lexes index cs tokens [] := by
  generalize htext : cs ++ after = text at h
  induction h generalizing cs with
  | done =>
    obtain rfl := List.append_left_eq_self.mp htext
    exact .done
  | @next index text kind read rest tokens after hread hrest ih =>
    obtain ⟨rest, rfl⟩ := hrest.suffix
    subst htext
    have hcut : readNext cs = some (kind, read, rest) := by
      refine readNext_cut hread hrest.not_tears ?_
      rintro ⟨rfl, hoctal, rfl⟩
      cases hrest.eq_nil rfl
      have hother := hlast ⟨.int, String.ofList read, index⟩ rfl
      simp [Token.isBareOctal, hoctal] at hother
    refine .next hcut (ih (fun token hmem => hlast token ?_) rfl)
    rw [List.getLast?_append]
    rw [hmem]
    rfl

end Lexes

/-- Tokens in a row are the tokens of the piece of the source that they take. -/
theorem lex_piece {source : String} {a u b : List Token} (h : lex source = ⟨a ++ (u ++ b), none⟩)
    (hne : u ≠ []) (hlast : ∀ token ∈ u.getLast?, token.isBareOctal = false) :
    ∃ before inside after tokens, source.toList = before ++ (inside ++ after) ∧
      u = tokens.map (Token.shift before.length) ∧
      lex (String.ofList inside) = ⟨tokens, none⟩ ∧
      (∀ token ∈ tokens.head?, token.site.index = 0) ∧
      ∀ token ∈ tokens.getLast?, token.stop = inside.length := by
  obtain ⟨start, text, hsource, -, hrest, -⟩ := (lex_eq_iff.mp h).split
  rw [Nat.zero_add] at hrest
  cases u with
  | nil => exact absurd rfl hne
  | cons first u =>
    obtain ⟨blank, text, rfl, hindex, hrun⟩ := hrest.trim
    rw [← List.length_append] at hindex hrun
    have hrun : Lexes (start ++ blank).length text ((first :: u) ++ b) [] := hrun
    obtain ⟨inside, after, rfl, hinside, -, hstop⟩ := hrun.split
    have hcut := hinside.cut hlast
    rw [← Nat.zero_add (start ++ blank).length] at hcut
    obtain ⟨tokens, htokens, hlexes⟩ := hcut.unshift
    refine ⟨start ++ blank, inside, after, tokens, by simp [hsource], htokens, ?_, ?_, ?_⟩
    · rw [lex_eq_iff, String.toList_ofList]
      exact hlexes
    · intro token htoken
      have hfirst := congrArg List.head? htokens
      rw [List.head?_map, htoken] at hfirst
      cases hfirst
      exact Nat.add_right_cancel (hindex.trans (Nat.zero_add _).symm)
    · intro token htoken
      have hstop := hstop (token.shift (start ++ blank).length) (by
        rw [htokens, List.getLast?_map, htoken]
        rfl)
      rw [Token.stop_shift, Nat.add_comm] at hstop
      exact Nat.add_left_cancel hstop

end Grammar

end Calculator
