import Calculator.Proofs.Grammar.Derivation

/-!
# What a chart finds

A search finds all derivations and nothing else. Of several derivations that leave the same tokens,
one with the most calls is kept. The reach of a search is the farthest place up to which the tokens
can go on to some derivation.
-/

namespace Calculator.Grammar

open Sketch

variable {e f g : Ending} {a b found next : Found} {tokens left before after : List Token}
  {sketches : List Sketch} {parts : List Part} {choices : List (List Part)} {calls reach rest : Nat}

/-! ## The endings with the most calls -/

/-- Some ending leaves so many tokens and has at least so many calls. -/
def Offered (ends : List Ending) (rest calls : Nat) : Prop :=
  ∃ e ∈ ends, e.rest = rest ∧ calls ≤ e.calls

section

variable {ends : List Ending}

theorem calls_le_of_beats (e f : Ending) :
    e.calls ≤ (if e.beats f then e else f).calls ∧
      f.calls ≤ (if e.beats f then e else f).calls := by
  simp only [Ending.beats, Bool.or_eq_true, Bool.and_eq_true, decide_eq_true_eq]
  split <;> omega

theorem offered_addTo (h : (e.rest = rest ∧ calls ≤ e.calls) ∨ Offered ends rest calls) :
    Offered (e.addTo ends) rest calls := by
  fun_induction Ending.addTo e ends with
  | case1 =>
    rcases h with h | ⟨f, hf, -⟩
    · exact ⟨e, List.mem_singleton_self e, h⟩
    · cases hf
  | case2 =>
    rcases h with h | ⟨f, hf, h⟩
    · exact ⟨e, List.mem_cons_self, h⟩
    · exact ⟨f, List.mem_cons_of_mem e hf, h⟩
  | case3 g others _ hrest =>
    obtain ⟨hfirst, hsecond⟩ := calls_le_of_beats e g
    have hkept := Ending.rest_of_beats hrest
    rcases h with ⟨rfl, hcalls⟩ | ⟨f, hf, rfl, hcalls⟩
    · exact ⟨_, List.mem_cons_self, hkept, Nat.le_trans hcalls hfirst⟩
    · rcases List.mem_cons.mp hf with rfl | hf
      · exact ⟨_, List.mem_cons_self, hkept.trans hrest.symm, Nat.le_trans hcalls hsecond⟩
      · exact ⟨f, List.mem_cons_of_mem _ hf, rfl, hcalls⟩
  | case4 g others _ _ ih =>
    rcases h with h | ⟨f, hf, h⟩
    · obtain ⟨f, hf, h⟩ := ih (.inl h)
      exact ⟨f, List.mem_cons_of_mem g hf, h⟩
    · rcases List.mem_cons.mp hf with rfl | hf
      · exact ⟨f, List.mem_cons_self, h⟩
      · obtain ⟨f, hf, h⟩ := ih (.inr ⟨f, hf, h⟩)
        exact ⟨f, List.mem_cons_of_mem g hf, h⟩

theorem offered_merge (h : Offered a.ends rest calls ∨ Offered b.ends rest calls) :
    Offered (a.merge b).ends rest calls := by
  change Offered (a.ends.foldr Ending.addTo b.ends) rest calls
  generalize a.ends = ends at h
  induction ends with
  | nil =>
    rcases h with ⟨f, hf, -⟩ | h
    · cases hf
    · exact h
  | cons f ends ih =>
    rcases h with ⟨g, hg, h⟩ | h
    · rcases List.mem_cons.mp hg with rfl | hg
      · exact offered_addTo (.inl h)
      · exact offered_addTo (.inr (ih (.inl ⟨g, hg, h⟩)))
    · exact offered_addTo (.inr (ih (.inr h)))

end

section

variable {α : Type} {steps : List α} {f : α → Found} {last : Found}

theorem offered_foldr_merge
    (h : (∃ s ∈ steps, Offered (f s).ends rest calls) ∨ Offered last.ends rest calls) :
    Offered (steps.foldr (fun s others => (f s).merge others) last).ends rest calls := by
  induction steps with
  | nil => simpa using h
  | cons s steps ih =>
    rw [List.exists_mem_cons_iff, or_assoc] at h
    exact offered_merge (h.imp_right ih)

theorem reach_foldr_merge_le :
    (steps.foldr (fun s others => (f s).merge others) last).reach ≤ last.reach ∧
      ∀ s ∈ steps, (steps.foldr (fun s others => (f s).merge others) last).reach ≤ (f s).reach := by
  induction steps with
  | nil => simp
  | cons s steps ih =>
    obtain ⟨hlast, hsteps⟩ := ih
    refine ⟨Nat.le_trans (Nat.min_le_right _ _) hlast, List.forall_mem_cons.mpr ⟨?_, ?_⟩⟩
    · exact Nat.min_le_left _ _
    · exact fun t ht => Nat.le_trans (Nat.min_le_right _ _) (hsteps t ht)

theorem reach_foldr_merge_eq (f : α → Found) (steps : List α) (last : Found) :
    (steps.foldr (fun s others => (f s).merge others) last).reach = last.reach ∨
      ∃ s ∈ steps, (steps.foldr (fun s others => (f s).merge others) last).reach = (f s).reach := by
  induction steps with
  | nil => exact .inl rfl
  | cons s steps ih =>
    rw [List.exists_mem_cons_iff, List.foldr_cons, Found.merge]
    dsimp only
    rcases Nat.le_total (f s).reach
      (steps.foldr (fun s others => (f s).merge others) last).reach with h | h
    · exact .inr (.inl (Nat.min_eq_left h))
    · rw [Nat.min_eq_right h]
      exact ih.imp_right .inr

end

/-! ## What is to be found -/

/-- A derivation of one of the alternatives. -/
def AnyOf (choices : List (List Part)) (tokens : List Token) (sketches : List Sketch)
    (left : List Token) : Prop :=
  ∃ parts ∈ choices, Derives Grammatical parts tokens sketches left

/-- With some more tokens, one of the alternatives derives all of them. -/
def Begins (choices : List (List Part)) (before : List Token) : Prop :=
  ∃ more sketches, AnyOf choices (before ++ more) sketches []

/-- From the first ending on, one of the alternatives leads to the second. -/
def Reads (choices : List (List Part)) (tokens : List Token) (e f : Ending) : Prop :=
  ∃ sketches left, AnyOf choices tokens sketches left ∧ f.rest = left.length ∧
    f.parts = sketches ++ e.parts ∧ f.calls = e.calls + nodesOf .call sketches

/-- What is read up to there can go on, or nothing is read. -/
def Reached (choices : List (List Part)) (tokens : List Token) (reach : Nat) : Prop :=
  ∃ before after, tokens = before ++ after ∧ reach = after.length ∧
    (before = [] ∨ Begins choices before)

/-- All that the alternatives can be from an ending on, where the tokens come next. -/
structure Explores (choices : List (List Part)) (tokens : List Token) (e : Ending) (found : Found) :
    Prop where
  sound : ∀ f ∈ found.ends, Reads choices tokens e f
  complete : ∀ {sketches left}, AnyOf choices tokens sketches left →
    Offered found.ends left.length (e.calls + nodesOf .call sketches)
  reached : Reached choices tokens found.reach
  farthest : ∀ {before after}, tokens = before ++ after → Begins choices before →
    found.reach ≤ after.length

@[simp]
theorem anyOf_singleton :
    AnyOf [parts] tokens sketches left ↔ Derives Grammatical parts tokens sketches left := by
  simp [AnyOf]

theorem AnyOf.leaves (h : AnyOf choices tokens sketches left) :
    tokens = leavesOf sketches ++ left :=
  let ⟨_, _, h⟩ := h
  h.leaves

theorem Begins.append {second : List Part} (h : Begins [parts] before) :
    Begins [parts ++ second] before := by
  obtain ⟨more, sketches, h⟩ := h
  obtain ⟨others, later, hsecond⟩ := exists_derives second
  rw [anyOf_singleton] at h
  refine ⟨more ++ others, later ++ sketches, anyOf_singleton.mpr ?_⟩
  rw [← List.append_assoc, h.leaves, List.append_nil]
  exact (h.frame others).append hsecond

theorem Begins.of_nil_or (h : before = [] ∨ Begins [parts] before) : Begins [parts] before := by
  rcases h with rfl | h
  · obtain ⟨more, sketches, h⟩ := exists_derives parts
    exact ⟨more, sketches, anyOf_singleton.mpr h⟩
  · exact h

theorem Begins.later {second : List Part} (hfirst : Derives Grammatical parts tokens sketches left)
    (h : Begins [second] before) : Begins [parts ++ second] (leavesOf sketches ++ before) := by
  obtain ⟨more, later, h⟩ := h
  rw [anyOf_singleton] at h
  refine ⟨more, later ++ sketches, anyOf_singleton.mpr ?_⟩
  rw [List.append_assoc]
  exact (hfirst.frame _).append h

/-- Tokens that begin two groups of parts end in the first group or in the second. -/
theorem Begins.split {second : List Part} (h : Begins [parts ++ second] before) :
    Begins [parts] before ∨ ∃ sketches inside, before = leavesOf sketches ++ inside ∧
      (∀ after, Derives Grammatical parts (before ++ after) sketches (inside ++ after)) ∧
      Begins [second] inside := by
  obtain ⟨more, sketches, h⟩ := h
  rw [anyOf_singleton] at h
  obtain ⟨between, earlier, later, rfl, hfirst, hsecond⟩ := h.split
  rcases List.append_eq_append_iff.mp hfirst.leaves with
    ⟨others, hleaves, -⟩ | ⟨inside, rfl, rfl⟩
  · refine .inl ⟨others, earlier, anyOf_singleton.mpr ?_⟩
    simpa [← hleaves] using hfirst.frame []
  · refine .inr ⟨earlier, inside, rfl, fun after => ?_, more, later, anyOf_singleton.mpr hsecond⟩
    rw [List.append_assoc]
    exact hfirst.frame _

/-! ## Several alternatives -/

theorem Explores.map {change : Ending → Ending} (h : Explores choices tokens e found)
    (hchange : ∀ f, (change f).rest = f.rest ∧ (change f).parts = f.parts ∧
      (change f).calls = f.calls) :
    Explores choices tokens e ⟨found.ends.map change, found.reach⟩ := by
  refine ⟨fun g hg => ?_, fun hder => ?_, h.reached, h.farthest⟩
  · obtain ⟨f, hf, rfl⟩ := List.mem_map.mp hg
    obtain ⟨hrest, hparts, hcalls⟩ := hchange f
    obtain ⟨sketches, left, hreads⟩ := h.sound f hf
    exact ⟨sketches, left, by rwa [hrest, hparts, hcalls]⟩
  · obtain ⟨f, hf, hoffered⟩ := h.complete hder
    obtain ⟨hrest, -, hcalls⟩ := hchange f
    exact ⟨change f, List.mem_map_of_mem hf, by rwa [hrest, hcalls]⟩

theorem Explores.foldr_merge {α : Type} {steps : List α} {f : α → Found} {choice : α → List Part}
    (hrest : e.rest = tokens.length) (h : ∀ s ∈ steps, Explores [choice s] tokens e (f s)) :
    Explores (steps.map choice) tokens e
      (steps.foldr (fun s others => (f s).merge others) (.nothing e.rest)) := by
  constructor
  case sound =>
    intro g hg
    rcases Found.mem_foldr_merge hg with ⟨s, hs, hg⟩ | hg
    · obtain ⟨sketches, left, hder, hreads⟩ := (h s hs).sound g hg
      exact ⟨sketches, left, ⟨_, List.mem_map_of_mem hs, anyOf_singleton.mp hder⟩, hreads⟩
    · cases hg
  case complete =>
    rintro sketches left ⟨_, hmem, hder⟩
    obtain ⟨s, hs, rfl⟩ := List.mem_map.mp hmem
    exact offered_foldr_merge (.inl ⟨s, hs, (h s hs).complete (anyOf_singleton.mpr hder)⟩)
  case reached =>
    rcases reach_foldr_merge_eq f steps (.nothing e.rest) with hreach | ⟨s, hs, hreach⟩
    · exact ⟨[], tokens, rfl, hreach.trans hrest, .inl rfl⟩
    · rw [hreach]
      obtain ⟨before, after, htokens, hlength, hbegins⟩ := (h s hs).reached
      refine ⟨before, after, htokens, hlength, hbegins.imp_right ?_⟩
      rintro ⟨more, sketches, hder⟩
      exact ⟨more, sketches, _, List.mem_map_of_mem hs, anyOf_singleton.mp hder⟩
  case farthest =>
    rintro before after htokens ⟨more, sketches, _, hmem, hder⟩
    obtain ⟨s, hs, rfl⟩ := List.mem_map.mp hmem
    refine Nat.le_trans (reach_foldr_merge_le.2 s hs) ((h s hs).farthest htokens ?_)
    exact ⟨more, sketches, anyOf_singleton.mpr hder⟩

/-! ## One part after the other -/

/-- From a place on, a part is explored as the alternatives of its own. -/
abbrev ExploredAt (part : Part) (next : Nat → Found) (left : List Token) : Prop :=
  Explores [[part]] left (.start left.length) (next left.length)

theorem Explores.start (hrest : e.rest = tokens.length) :
    Explores [[]] tokens e ⟨[e], e.rest⟩ := by
  constructor
  case sound =>
    intro f hf
    rw [List.mem_singleton.mp hf]
    exact ⟨[], tokens, anyOf_singleton.mpr .nil, hrest, rfl, rfl⟩
  case complete =>
    intro sketches left hder
    obtain ⟨rfl, rfl⟩ := Derives.nil_iff.mp (anyOf_singleton.mp hder)
    exact ⟨e, List.mem_singleton_self e, hrest, Nat.le_refl _⟩
  case reached => exact ⟨[], tokens, rfl, hrest, .inl rfl⟩
  case farthest =>
    rintro before after rfl ⟨more, sketches, hder⟩
    obtain ⟨-, hnil⟩ := Derives.nil_iff.mp (anyOf_singleton.mp hder)
    obtain ⟨rfl, -⟩ := List.append_eq_nil_iff.mp hnil
    exact Nat.le_of_eq hrest

theorem Explores.extend {part : Part} {next : Nat → Found} (h : Explores [parts] tokens e found)
    (hnext : ∀ f ∈ found.ends, ∀ left, left <:+ tokens → left.length = f.rest →
      ExploredAt part next left) :
    Explores [parts ++ [part]] tokens e (View.extend next found) := by
  constructor
  case sound =>
    intro g hg
    rcases Found.mem_foldr_merge hg with ⟨f, hf, hg⟩ | hg
    · obtain ⟨b, hb, rfl⟩ := List.mem_map.mp hg
      obtain ⟨first, between, hfirst, hrest, hparts, hcalls⟩ := h.sound f hf
      have hat := hnext f hf between ⟨_, hfirst.leaves.symm⟩ hrest.symm
      rw [ExploredAt, ← hrest] at hat
      obtain ⟨second, left, hsecond, hleft, hlast, hmore⟩ := hat.sound b hb
      rw [anyOf_singleton] at hfirst hsecond
      refine ⟨second ++ first, left, anyOf_singleton.mpr (hfirst.append hsecond), hleft, ?_, ?_⟩
      · simp [hparts, hlast, Ending.start]
      · simp [hcalls, hmore, Ending.start, nodesOf_append, Nat.add_assoc]
    · cases hg
  case complete =>
    intro sketches left hder
    obtain ⟨between, first, second, rfl, hfirst, hsecond⟩ := (anyOf_singleton.mp hder).split
    obtain ⟨f, hf, hrest, hcalls⟩ := h.complete (anyOf_singleton.mpr hfirst)
    have hat := hnext f hf between ⟨_, hfirst.leaves.symm⟩ hrest.symm
    rw [ExploredAt, ← hrest] at hat
    obtain ⟨g, hg, hleft, hmore⟩ := hat.complete (anyOf_singleton.mpr hsecond)
    refine offered_foldr_merge (.inl ⟨f, hf, _, List.mem_map_of_mem hg, hleft, ?_⟩)
    simp only [nodesOf_append, Ending.start] at hmore ⊢
    omega
  case reached =>
    have hcases : (View.extend next found).reach = found.reach ∨
        ∃ f ∈ found.ends, (View.extend next found).reach = (next f.rest).reach :=
      reach_foldr_merge_eq _ found.ends ⟨[], found.reach⟩
    rcases hcases with hreach | ⟨f, hf, hreach⟩
    · obtain ⟨before, after, htokens, hlength, hbegins⟩ := h.reached
      exact ⟨before, after, htokens, hreach.trans hlength, hbegins.imp_right Begins.append⟩
    · obtain ⟨first, between, hfirst, hrest, -⟩ := h.sound f hf
      have hat := hnext f hf between ⟨_, hfirst.leaves.symm⟩ hrest.symm
      obtain ⟨before, after, rfl, hlength, hbegins⟩ := hat.reached
      refine ⟨leavesOf first ++ before, after, ?_, ?_, .inr ?_⟩
      · rw [hfirst.leaves, List.append_assoc]
      · rw [← hlength, ← hrest]
        exact hreach
      · exact Begins.later (anyOf_singleton.mp hfirst) (Begins.of_nil_or hbegins)
  case farthest =>
    rintro before after rfl hbegins
    rcases hbegins.split with hbegins | ⟨first, inside, rfl, hfirst, hbegins⟩
    · exact Nat.le_trans reach_foldr_merge_le.1 (h.farthest rfl hbegins)
    · obtain ⟨f, hf, hrest, -⟩ := h.complete (anyOf_singleton.mpr (hfirst after))
      have hat := hnext f hf (inside ++ after) ⟨_, (hfirst after).leaves.symm⟩ hrest.symm
      rw [ExploredAt, ← hrest] at hat
      exact Nat.le_trans (reach_foldr_merge_le.2 f hf) (hat.farthest rfl hbegins)

end Calculator.Grammar
