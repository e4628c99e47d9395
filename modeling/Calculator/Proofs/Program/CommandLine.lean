import Calculator.Program.CommandLine
import Calculator.Proofs.Number.Reading

/-!
# Settling the options

Arguments are read from left to right, one flag or the source at a time. Reading them and the
environment comes to valid limits or to a complaint, unless a depth is given in digits that are not
read as a number.
-/

namespace Calculator

namespace Config

variable {config config' : Config}

end Config

namespace Options

variable {options options' : Options} {given rest : List String} {s : String}

/-- Every digit stands in a decimal place, and there are not too many of them. -/
structure Readable (s : String) : Prop where
  decimal : ∀ c ∈ s.toList, Text.isDecimal c = true
  length : s.length ≤ Number.digitLimit

/-- Digits are all that is looked at first. What they are read as decides then. -/
theorem exists_readDepth_iff (s : String) :
    (∃ result, readDepth s = .ok result) ↔ (isNumber s = true → Readable s) := by
  unfold readDepth
  cases hnumber : isNumber s with
  | false => simp
  | true =>
    have hdigits : s ≠ "" ∧ ∀ c ∈ s.toList, Text.isDigit c = true := by
      simpa [isNumber] using hnumber
    obtain ⟨hne, hdigits⟩ := hdigits
    have hread := Number.isSome_readInteger_iff (mt String.toList_eq_nil_iff.mp hne) hdigits
    have hlong := Number.overlong?_eq_none_iff hdigits
    rw [String.ofList_toList] at hread hlong
    simp only [Bool.not_true, Bool.false_eq_true, if_false, true_imp_iff]
    constructor
    case mp =>
      rintro ⟨result, hresult⟩
      split at hresult
      case isTrue => cases hresult
      case isFalse hshort =>
        have hdecimal : ∀ c ∈ s.toList, Text.isDecimal c = true := by
          refine hread.mp (Option.isSome_iff_ne_none.mpr fun hnone => ?_)
          rw [hnone] at hresult
          cases hresult
        rw [Option.not_isSome_iff_eq_none, hlong, List.takeWhile_eq_self_iff.mpr hdecimal] at hshort
        exact ⟨hdecimal, hshort⟩
    case mpr =>
      rintro ⟨hdecimal, hlength⟩
      rw [List.takeWhile_eq_self_iff.mpr hdecimal] at hlong
      obtain ⟨n, hn⟩ := Option.isSome_iff_exists.mp (hread.mpr hdecimal)
      exact ⟨.ok n, by simp [hlong.mpr hlength, hn]⟩

/-! ## One round of reading -/

/-- A flag for the depth, with an equals sign or with the token behind it. -/
inductive GivesDepth : List String → String → Prop where
  | joined {token s : String} (hflag : token.startsWith "--max-depth" = true)
      (hvalue : afterEquals token = some s) : GivesDepth [token] s
  | apart {token s : String} (hflag : token.startsWith "--max-depth" = true)
      (hvalue : afterEquals token = none) : GivesDepth [token, s] s

theorem not_extension_of_depth {token : String} (h : token.startsWith "--max-depth" = true) :
    isExtension token = false ∧ token.startsWith "--extension=" = false := by
  rw [String.startsWith_string_iff] at h
  constructor
  · refine Bool.eq_false_iff.mpr fun hextension => ?_
    simp only [isExtension, Bool.or_eq_true, decide_eq_true_eq] at hextension
    rcases hextension with rfl | rfl <;> exact absurd h (by decide)
  · refine Bool.eq_false_iff.mpr fun hextension => ?_
    rw [String.startsWith_string_iff] at hextension
    exact absurd (List.prefix_of_prefix_length_le h hextension (by decide)) (by decide)

/-- Reading goes on behind a depth, or what became of the depth ends it. -/
def afterDepth (options : Options) (tokens : List String) :
    Except Fault (Except String Int) → Except Fault (Except String Options)
  | .ok (.ok depth) => { options with maxDepth := some depth }.read tokens
  | .ok (.error complaint) => .ok (.error complaint)
  | .error fault => .error fault

theorem GivesDepth.read (h : GivesDepth given s) (options : Options) (tokens : List String) :
    options.read (given ++ tokens) = options.afterDepth tokens (readDepth s) := by
  cases h with
  | joined hflag hvalue | apart hflag hvalue =>
    obtain ⟨hextension, hjoined⟩ := not_extension_of_depth hflag
    rcases hdepth : readDepth s with fault | complaint | depth <;> cases tokens <;>
      simp [Options.read, hextension, hjoined, hflag, hvalue, hdepth, afterDepth]

/-- Digits that are not read as a number stop the program. -/
theorem GivesDepth.exists_fault (h : GivesDepth given s) (hnumber : isNumber s = true)
    (hread : ¬Readable s) (options : Options) (tokens : List String) :
    ∃ fault, options.read (given ++ tokens) = .error fault := by
  cases hdepth : readDepth s with
  | ok result => exact absurd ((exists_readDepth_iff s).mp ⟨result, hdepth⟩ hnumber) hread
  | error fault => exact ⟨fault, by rw [h.read, hdepth, afterDepth]⟩

/-- What reading does next: it goes on behind what it takes, or it ends in one of three ways. -/
inductive Round (options : Options) : List String → Prop where
  | done : Round options []
  | taken {given rest : List String} {options' : Options} (hne : given ≠ [])
      (h : ∀ tokens, options.read (given ++ tokens) = options'.read tokens) :
      Round options (given ++ rest)
  | refused {tokens : List String} (h : ∃ complaint, options.read tokens = .ok (.error complaint)) :
      Round options tokens
  | unread {given rest : List String} {s : String} (h : GivesDepth given s)
      (hnumber : isNumber s = true) (hread : ¬Readable s) : Round options (given ++ rest)

theorem GivesDepth.round (h : GivesDepth given s) (options : Options) (rest : List String) :
    Round options (given ++ rest) := by
  have hread := h.read options
  cases hdepth : readDepth s with
  | error fault =>
    have hno : ¬(isNumber s = true → Readable s) := by
      rw [← exists_readDepth_iff, hdepth]
      simp
    obtain ⟨hnumber, hno⟩ := Classical.not_imp.mp hno
    exact .unread h hnumber hno
  | ok result =>
    simp only [hdepth] at hread
    cases result with
    | error complaint => exact .refused ⟨complaint, hread rest⟩
    | ok depth =>
      have hne : given ≠ [] := by cases h <;> exact List.cons_ne_nil _ _
      exact .taken hne hread

theorem round (options : Options) (tokens : List String) : Round options tokens := by
  cases tokens with
  | nil => exact .done
  | cons token tokens =>
    by_cases hdepth : token.startsWith "--max-depth" = true
    case pos =>
      cases hvalue : afterEquals token with
      | some s => exact (GivesDepth.joined hdepth hvalue).round options tokens
      | none =>
        cases tokens with
        | cons s tokens => exact (GivesDepth.apart hdepth hvalue).round options tokens
        | nil =>
          obtain ⟨hextension, hjoined⟩ := not_extension_of_depth hdepth
          refine .refused ⟨"--max-depth requires a positive integer", ?_⟩
          simp [read, hextension, hjoined, hdepth, hvalue]
    by_cases hextension : isExtension token = true
    case pos =>
      cases tokens with
      | nil => exact .refused ⟨token ++ " flag requires a path", by simp [read, hextension]⟩
      | cons path tokens =>
        refine @Round.taken options [token, path] tokens
          { options with extensions := options.extensions ++ [path] } (List.cons_ne_nil _ _) ?_
        exact fun tokens => by simp [read, hextension]
    -- Each of the others stands alone.
    have htaken (options' : Options)
        (h : ∀ tokens, options.read (token :: tokens) = options'.read tokens) :
        Round options (token :: tokens) := .taken (List.cons_ne_nil token []) h
    by_cases hjoined : token.startsWith "--extension=" = true
    case pos =>
      let path := (afterEquals token).getD ""
      refine htaken { options with extensions := options.extensions ++ [path] } fun tokens => ?_
      cases tokens <;> simp [read, hextension, hjoined, path]
    by_cases hverbose : isVerbose token = true
    case pos =>
      refine htaken { options with verbose := true } fun tokens => ?_
      cases tokens <;> simp [read, hextension, hjoined, hdepth, hverbose]
    by_cases hrepl : token = "--repl"
    case pos =>
      refine htaken { options with interactive := true } fun tokens => ?_
      cases tokens <;> simp only [read, hextension, hjoined, hdepth, hverbose, if_pos hrepl] <;> rfl
    cases hsource : options.source with
    | none =>
      refine htaken { options with source := some token } fun tokens => ?_
      cases tokens <;> simp [read, hextension, hjoined, hdepth, hverbose, hrepl, hsource]
    | some source =>
      refine .refused ⟨"Unexpected argument: " ++ token, ?_⟩
      cases tokens <;> simp [read, hextension, hjoined, hdepth, hverbose, hrepl, hsource]

/-! ## All rounds -/

/-- Each round leaves fewer tokens for the next one. -/
theorem rounds_induction {motive : Options → List String → Prop}
    (done : ∀ options, motive options [])
    (taken : ∀ options options' given rest,
      (∀ tokens, options.read (given ++ tokens) = options'.read tokens) → motive options' rest →
        motive options (given ++ rest))
    (refused : ∀ options tokens complaint, options.read tokens = .ok (.error complaint) →
      motive options tokens)
    (unread : ∀ options given rest s, GivesDepth given s → isNumber s = true → ¬Readable s →
      motive options (given ++ rest))
    (options : Options) (tokens : List String) : motive options tokens := by
  induction hlength : tokens.length using Nat.strongRecOn generalizing options tokens with
  | ind length ih =>
    cases options.round tokens with
    | done => exact done options
    | @taken given rest options' hne htaken =>
      have hpos := List.length_pos_iff.mpr hne
      rw [List.length_append] at hlength
      exact taken options options' given rest htaken (ih _ (by omega) options' rest rfl)
    | refused hrefused =>
      obtain ⟨complaint, hrefused⟩ := hrefused
      exact refused options tokens complaint hrefused
    | @unread given rest s hgives hnumber hunread =>
      exact unread options given rest s hgives hnumber hunread

/-- What comes first can be read on its own. -/
theorem read_append {before : List String} (h : options.read before = .ok (.ok options'))
    (tokens : List String) : options.read (before ++ tokens) = options'.read tokens := by
  induction options, before using rounds_induction with
  | done options =>
    cases h
    rfl
  | taken options middle given rest htaken ih =>
    rw [List.append_assoc, htaken, ih ((htaken rest).symm.trans h)]
  | refused options before complaint hrefused => cases hrefused.symm.trans h
  | unread options given rest s hgives hnumber hunread =>
    obtain ⟨fault, hfault⟩ := hgives.exists_fault hnumber hunread options rest
    cases hfault.symm.trans h

/-- Reading comes to a depth in digits that are not read as a number. -/
structure Stuck (options : Options) (before given : List String) (s : String) : Prop where
  read : ∃ options', options.read before = .ok (.ok options')
  gives : GivesDepth given s
  number : isNumber s = true
  unread : ¬Readable s

theorem Stuck.exists_fault {before : List String} (h : Stuck options before given s)
    (after : List String) : ∃ fault, options.read (before ++ given ++ after) = .error fault := by
  obtain ⟨options', hbefore⟩ := h.read
  obtain ⟨fault, hfault⟩ := h.gives.exists_fault h.number h.unread options' after
  exact ⟨fault, by rw [List.append_assoc, read_append hbefore, hfault]⟩

/-! ## Settling -/

end Options

end Calculator
