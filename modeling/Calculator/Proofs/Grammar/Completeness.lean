import Calculator.Proofs.Grammar.Recognition

/-!
# A chart finds all derivations

Symbols are explored by the cells of a chart, and all parts of an alternative by their symbols. The
first symbol of an alternative stands at the place of the search, and all others at later places.
-/

namespace Calculator.Grammar

open Sketch

variable {e f g : Ending} {found pending : Found} {tokens left before after : List Token}
  {sketches : List Sketch} {parts : List Part} {view : View} {rest : Nat}
  {n m : Nonterminal}

/-! ## Symbols one after the other -/

section

variable {α : Type} {part : α → Part} {next : α → Nat → Found} {steps : List α}

theorem Explores.foldl (hne : parts ≠ []) (h : Explores [parts] tokens e found)
    (hnext : ∀ step ∈ steps, ∀ left, left <:+ tokens → left.length < tokens.length →
      ExploredAt (part step) (next step) left) :
    Explores [parts ++ steps.map part] tokens e
      (steps.foldl (fun found step => View.extend (next step) found) found) := by
  induction steps generalizing parts found with
  | nil => simpa using h
  | cons step steps ih =>
    obtain ⟨hstep, hsteps⟩ := List.forall_mem_cons.mp hnext
    rw [List.map_cons, List.append_cons]
    refine ih (by simp) (h.extend fun f hf left hleft hlength => hstep left hleft ?_) hsteps
    -- Some part is read already, so the next one stands at a later place.
    obtain ⟨first, between, hfirst, hrest, -⟩ := h.sound f hf
    rw [hlength, hrest]
    exact (anyOf_singleton.mp hfirst).length_lt hne

theorem Explores.foldl_start {step : α} (hrest : e.rest = tokens.length)
    (hfirst : ExploredAt (part step) (next step) tokens)
    (hnext : ∀ step ∈ steps, ∀ left, left <:+ tokens → left.length < tokens.length →
      ExploredAt (part step) (next step) left) :
    Explores [(step :: steps).map part] tokens e
      ((step :: steps).foldl (fun found step => View.extend (next step) found) ⟨[e], e.rest⟩) := by
  have hstart : Explores [[] ++ [part step]] tokens e (View.extend (next step) ⟨[e], e.rest⟩) := by
    refine (Explores.start hrest).extend fun f hf left hleft hlength => ?_
    rw [List.mem_singleton.mp hf, hrest] at hlength
    rwa [hleft.eq_of_length hlength]
  exact Explores.foldl (List.cons_ne_nil _ _) hstart hnext

end

/-! ## Rounds -/

/-- The view finds all that the symbol can be from these tokens on. -/
def View.Explored (view : View) (left : List Token) (s : Symbol) : Prop :=
  ExploredAt (.one s) (view.symbol · s) left

/-- One round. -/
def Repetition.choices (repetition : Repetition) : List (List Part) :=
  repetition.rounds.map (·.map .one)

/-- The symbols that a part may start with. -/
def Part.firsts : Part → List Symbol
  | .one s => [s]
  | .many repetition => repetition.rounds.filterMap List.head?

section Rounds

variable {repetition : Repetition}

theorem Explores.round {shift : Nat} (hrest : e.rest = tokens.length)
    (hfirst : ∀ s ∈ (Part.many repetition).firsts, view.Explored tokens s)
    (hbelow : ∀ left, left <:+ tokens → left.length < tokens.length → ∀ s, view.Explored left s) :
    Explores repetition.choices tokens e (view.round repetition.rounds shift e) := by
  have hchoices : repetition.choices =
      repetition.rounds.zipIdx.map fun pair => pair.1.map Part.one := by
    conv_lhs => rw [Repetition.choices, ← List.zipIdx_map_fst 0 repetition.rounds, List.map_map]
    rfl
  rw [hchoices]
  refine Explores.foldr_merge hrest fun pair hpair => ?_
  have hround := List.fst_mem_of_mem_zipIdx hpair
  obtain ⟨s, others, hcons⟩ := List.exists_cons_of_ne_nil (repetition.ne_nil_of_mem_rounds _ hround)
  have hsymbols : Explores [pair.1.map .one] tokens e (view.symbols ⟨[e], e.rest⟩ pair.1) := by
    rw [hcons]
    refine Explores.foldl_start hrest (hfirst s ?_) fun t _ left hleft hlength =>
      hbelow left hleft hlength t
    exact List.mem_filterMap.mpr ⟨_, hround, by rw [hcons]; rfl⟩
  have hordered : Explores _ _ _ ((view.symbols ⟨[e], e.rest⟩ pair.1).withOrder (shift + pair.2)) :=
    hsymbols.map fun _ => ⟨rfl, rfl, rfl⟩
  exact hordered.map fun _ => ⟨rfl, rfl, rfl⟩

theorem AnyOf.many (h : AnyOf repetition.choices tokens sketches left) :
    Derives Grammatical [.many repetition] tokens sketches left := by
  obtain ⟨_, hmem, h⟩ := h
  obtain ⟨round, hround, rfl⟩ := List.mem_map.mp hmem
  exact .lastRound hround (by rwa [List.append_nil])

theorem AnyOf.many_append {between : List Token} {later : List Sketch}
    (hfirst : Derives Grammatical [.many repetition] tokens sketches between)
    (h : AnyOf repetition.choices between later left) :
    Derives Grammatical [.many repetition] tokens (later ++ sketches) left := by
  obtain ⟨_, hmem, h⟩ := h
  obtain ⟨round, hround, rfl⟩ := List.mem_map.mp hmem
  exact hfirst.many_append hround h

theorem Derives.many_cases (h : Derives Grammatical [.many repetition] tokens sketches left) :
    AnyOf repetition.choices tokens sketches left ∨
      ∃ round ∈ repetition.choices,
        Derives Grammatical (round ++ [.many repetition]) tokens sketches left := by
  cases h with
  | lastRound hround h =>
    rw [List.append_nil] at h
    exact .inl ⟨_, List.mem_map_of_mem hround, h⟩
  | nextRound hround h => exact .inr ⟨_, List.mem_map_of_mem hround, h⟩

/-- From an ending on, all that more rounds lead to is found. -/
structure Continues (repetition : Repetition) (left : List Token) (e : Ending) (found : Found) :
    Prop where
  complete : ∀ {sketches rest}, Derives Grammatical [.many repetition] left sketches rest →
    Offered found.ends rest.length (e.calls + nodesOf .call sketches)
  farthest : ∀ {before after}, left = before ++ after → Begins [[.many repetition]] before →
    found.reach ≤ after.length

/-- The first of the rounds is explored, and from all that it leads to the others are. -/
theorem Continues.of_round {next : Found} (hround : Explores repetition.choices left e next)
    (hreach : found.reach ≤ next.reach)
    (hothers : ∀ {rest calls}, Offered next.ends rest calls → Offered found.ends rest calls ∧
      ∃ f, calls ≤ f.calls ∧ ∀ between, between <:+ left → between.length = rest →
        Continues repetition between f found) :
    Continues repetition left e found := by
  constructor
  case complete =>
    intro sketches rest h
    rcases h.many_cases with h | ⟨round, hmem, h⟩
    · exact (hothers (hround.complete h)).1
    · obtain ⟨between, first, second, rfl, hfirst, hsecond⟩ := h.split
      obtain ⟨-, f, hcalls, hcontinues⟩ := hothers (hround.complete ⟨round, hmem, hfirst⟩)
      obtain ⟨g, hg, hrest, hmore⟩ :=
        (hcontinues between ⟨_, hfirst.leaves.symm⟩ rfl).complete hsecond
      refine ⟨g, hg, hrest, ?_⟩
      rw [nodesOf_append]
      omega
  case farthest =>
    rintro before after rfl ⟨more, sketches, h⟩
    rcases (anyOf_singleton.mp h).many_cases with h | ⟨round, hmem, h⟩
    · exact Nat.le_trans hreach (hround.farthest rfl ⟨more, sketches, h⟩)
    · have hbegins : Begins [round ++ [.many repetition]] before :=
        ⟨more, sketches, anyOf_singleton.mpr h⟩
      rcases hbegins.split with ⟨others, first, hfirst⟩ | ⟨first, inside, rfl, hfirst, hinside⟩
      · exact Nat.le_trans hreach
          (hround.farthest rfl ⟨others, first, round, hmem, anyOf_singleton.mp hfirst⟩)
      · obtain ⟨-, f, -, hcontinues⟩ := hothers (hround.complete ⟨round, hmem, hfirst after⟩)
        exact (hcontinues _ ⟨_, (hfirst after).leaves.symm⟩ rfl).farthest rfl hinside

theorem Continues.weaken {f : Ending} {more : Found} (h : Continues repetition left f found)
    (hcalls : e.calls ≤ f.calls) (hends : ∀ g ∈ found.ends, g ∈ more.ends)
    (hreach : more.reach = found.reach) : Continues repetition left e more := by
  refine ⟨fun hder => ?_, fun hleft hbegins => hreach ▸ h.farthest hleft hbegins⟩
  obtain ⟨g, hg, hrest, hmore⟩ := h.complete hder
  exact ⟨g, hends g hg, hrest, by omega⟩

theorem Reads.many_append {first : List Sketch} {between : List Token}
    (h : Reads repetition.choices between f g)
    (hder : Derives Grammatical [.many repetition] tokens first between)
    (hparts : f.parts = first ++ e.parts) (hcalls : f.calls = e.calls + nodesOf .call first) :
    Reads [[.many repetition]] tokens e g := by
  obtain ⟨second, left, hsecond, hlength, hlast, hmore⟩ := h
  refine ⟨second ++ first, left, anyOf_singleton.mpr (hsecond.many_append hder), hlength, ?_, ?_⟩
  · rw [hlast, hparts, List.append_assoc]
  · rw [hmore, hcalls, nodesOf_append, Nat.add_assoc]

theorem Reached.many_append {first : List Sketch} {between : List Token} {reach : Nat}
    (h : Reached repetition.choices between reach)
    (hder : Derives Grammatical [.many repetition] tokens first between) :
    Reached [[.many repetition]] tokens reach := by
  obtain ⟨before, after, rfl, hafter, hbegins⟩ := h
  refine ⟨leavesOf first ++ before, after, ?_, hafter, .inr ?_⟩
  · rw [hder.leaves, List.append_assoc]
  · rcases hbegins with rfl | ⟨more, second, hsecond⟩
    · exact ⟨[], first, anyOf_singleton.mpr (by simpa using hder.frame [])⟩
    · refine ⟨more, second ++ first, anyOf_singleton.mpr ?_⟩
      rw [List.append_assoc]
      exact hsecond.many_append (hder.frame _)

section MoreRounds

variable (hround : ∀ e left, left <:+ tokens → left.length < tokens.length →
  e.rest = left.length → Explores repetition.choices left e
    (view.round repetition.rounds repetition.rounds.length e))

include hround

/-- Nothing pending is lost, and all that follows it is found. -/
theorem continues_moreRounds {fuel : Nat} (hfuel : fuel ≤ tokens.length)
    (hdescending : Descending pending.ends) (hless : ∀ f ∈ pending.ends, f.rest < fuel) :
    (view.moreRounds repetition.rounds fuel pending).reach ≤ pending.reach ∧
      ∀ f ∈ pending.ends,
        Offered (view.moreRounds repetition.rounds fuel pending).ends f.rest f.calls ∧
          ∀ left, left <:+ tokens → left.length = f.rest →
            Continues repetition left f (view.moreRounds repetition.rounds fuel pending) := by
  fun_induction View.moreRounds view repetition.rounds fuel pending with
  | case1 pending => exact ⟨Nat.le_refl _, fun f hf => absurd (hless f hf) (Nat.not_lt_zero _)⟩
  | case2 fuel pending hends =>
    rw [hends]
    exact ⟨Nat.le_refl _, fun f hf => absurd hf List.not_mem_nil⟩
  | case3 fuel pending e others hends next found ih =>
    rw [hends] at hdescending hless ⊢
    obtain ⟨hlater, hothers⟩ := List.pairwise_cons.mp hdescending
    have hfirst := hless e List.mem_cons_self
    have hexplores : ∀ left, left <:+ tokens → left.length = e.rest →
        Explores repetition.choices left e _ := fun left hleft hlength =>
      hround e left hleft (by omega) hlength.symm
    have hnext : ∀ f ∈ next.ends, f.rest < fuel := by
      intro f hf
      rcases Found.mem_merge hf with hf | hf
      · have hlength : (tokens.rtake e.rest).length = e.rest := length_rtake (by omega)
        obtain ⟨sketches, left, h, hrest, -⟩ :=
          (hexplores (tokens.rtake e.rest) (List.drop_suffix _ _) hlength).sound f hf
        have hshorter := h.many.length_lt (List.cons_ne_nil _ _)
        omega
      · have := hlater f hf
        omega
    obtain ⟨hreach, hall⟩ := ih (by omega) (Found.descending_merge hothers) hnext
    -- What is offered to the next call of the loop is offered by its result.
    have hkept : ∀ {rest calls}, Offered next.ends rest calls →
        Offered (e :: found.ends) rest calls ∧ ∃ f, calls ≤ f.calls ∧
          ∀ left, left <:+ tokens → left.length = rest →
            Continues repetition left f { found with ends := e :: found.ends } := by
      rintro rest calls ⟨f, hf, rfl, hcalls⟩
      obtain ⟨⟨g, hg, hrest, hmore⟩, hcontinues⟩ := hall f hf
      refine ⟨⟨g, List.mem_cons_of_mem e hg, hrest, by omega⟩, f, hcalls, fun left hleft h => ?_⟩
      exact (hcontinues left hleft h).weaken (Nat.le_refl _) (fun _ => List.mem_cons_of_mem e) rfl
    have hreachNext : next.reach ≤ pending.reach := Nat.min_le_right _ _
    refine ⟨Nat.le_trans hreach hreachNext, List.forall_mem_cons.mpr ⟨⟨?_, ?_⟩, ?_⟩⟩
    · exact ⟨e, List.mem_cons_self, rfl, Nat.le_refl _⟩
    · intro left hleft hlength
      refine Continues.of_round (hexplores left hleft hlength)
        (Nat.le_trans hreach (Nat.min_le_left _ _)) fun hoffered => ?_
      obtain ⟨hfound, f, hcalls, h⟩ := hkept (offered_merge (.inl hoffered))
      exact ⟨hfound, f, hcalls, fun between hbetween => h between (hbetween.trans hleft)⟩
    · intro f hf
      obtain ⟨hfound, g, hcalls, h⟩ := hkept (offered_merge (.inr ⟨f, hf, rfl, Nat.le_refl _⟩))
      exact ⟨hfound, fun left hleft hlength =>
        (h left hleft hlength).weaken hcalls (fun _ h => h) rfl⟩

/-- All that is found has been read round by round. -/
theorem reads_moreRounds (fuel : Nat)
    (hpending : ∀ f ∈ pending.ends, Reads [[.many repetition]] tokens e f)
    (hreached : Reached [[.many repetition]] tokens pending.reach) :
    (∀ f ∈ (view.moreRounds repetition.rounds fuel pending).ends,
      Reads [[.many repetition]] tokens e f) ∧
      Reached [[.many repetition]] tokens
        (view.moreRounds repetition.rounds fuel pending).reach := by
  fun_induction View.moreRounds view repetition.rounds fuel pending with
  | case1 => exact ⟨fun f hf => absurd hf List.not_mem_nil, hreached⟩
  | case2 => exact ⟨hpending, hreached⟩
  | case3 fuel pending f others hends next found ih =>
    rw [hends, List.forall_mem_cons] at hpending
    obtain ⟨hf, hothers⟩ := hpending
    obtain ⟨first, between, hder, hrest, hparts, hcalls⟩ := hf
    rw [anyOf_singleton] at hder
    have hexplores := hround f between ⟨_, hder.leaves.symm⟩
      (hder.length_lt (List.cons_ne_nil _ _)) hrest
    have hnext : ∀ g ∈ next.ends, Reads [[.many repetition]] tokens e g := by
      intro g hg
      rcases Found.mem_merge hg with hg | hg
      · exact (hexplores.sound g hg).many_append hder hparts hcalls
      · exact hothers g hg
    have hreach : Reached [[.many repetition]] tokens next.reach := by
      -- The reach is that of the round or that of the pending endings.
      rcases Nat.le_total (view.round repetition.rounds repetition.rounds.length f).reach
        pending.reach with hle | hle
      · have hmin : next.reach = _ := Nat.min_eq_left hle
        exact hmin ▸ hexplores.reached.many_append hder
      · have hmin : next.reach = _ := Nat.min_eq_right hle
        rwa [hmin]
    obtain ⟨hsound, hreached⟩ := ih hnext hreach
    refine ⟨List.forall_mem_cons.mpr ⟨?_, hsound⟩, hreached⟩
    exact ⟨first, between, anyOf_singleton.mpr hder, hrest, hparts, hcalls⟩

end MoreRounds

theorem ExploredAt.many (hfirst : ∀ s ∈ (Part.many repetition).firsts, view.Explored tokens s)
    (hbelow : ∀ left, left <:+ tokens → left.length < tokens.length → ∀ s, view.Explored left s) :
    ExploredAt (.many repetition) (view.part · (.many repetition)) tokens := by
  have hround : ∀ e left, left <:+ tokens → left.length < tokens.length → e.rest = left.length →
      Explores repetition.choices left e
        (view.round repetition.rounds repetition.rounds.length e) := by
    intro e left hleft hlength hrest
    refine Explores.round hrest (fun s _ => hbelow left hleft hlength s) fun last hlast hshorter =>
      hbelow last (hlast.trans hleft) (Nat.lt_trans hshorter hlength)
  have hstart : Explores repetition.choices tokens (.start tokens.length)
      (view.round repetition.rounds 0 (.start tokens.length)) := Explores.round rfl hfirst hbelow
  have hpending : ∀ f ∈ (view.round repetition.rounds 0 (.start tokens.length)).ends,
      Reads [[.many repetition]] tokens (.start tokens.length) f := by
    intro f hf
    obtain ⟨sketches, left, h, hread⟩ := hstart.sound f hf
    exact ⟨sketches, left, anyOf_singleton.mpr h.many, hread⟩
  have hreached : Reached [[.many repetition]] tokens
      (view.round repetition.rounds 0 (.start tokens.length)).reach := by
    obtain ⟨before, after, htokens, hafter, hbegins⟩ := hstart.reached
    refine ⟨before, after, htokens, hafter, hbegins.imp_right ?_⟩
    rintro ⟨more, sketches, h⟩
    exact ⟨more, sketches, anyOf_singleton.mpr h.many⟩
  have hless : ∀ f ∈ (view.round repetition.rounds 0 (.start tokens.length)).ends,
      f.rest < tokens.length := by
    intro f hf
    obtain ⟨sketches, left, h, hrest, -⟩ := hstart.sound f hf
    rw [hrest]
    exact h.many.length_lt (List.cons_ne_nil _ _)
  obtain ⟨hsound, hreached⟩ := reads_moreRounds hround tokens.length hpending hreached
  obtain ⟨hreach, hall⟩ :=
    continues_moreRounds hround (Nat.le_refl _) View.descending_round hless
  have hcontinues : Continues repetition tokens (.start tokens.length)
      (view.repetition repetition tokens.length) := by
    refine Continues.of_round hstart hreach ?_
    rintro _ calls ⟨f, hf, rfl, hcalls⟩
    obtain ⟨⟨g, hg, hrest, hmore⟩, h⟩ := hall f hf
    exact ⟨⟨g, hg, hrest, Nat.le_trans hcalls hmore⟩, f, hcalls, h⟩
  exact ⟨hsound, fun h => hcontinues.complete (anyOf_singleton.mp h), hreached,
    hcontinues.farthest⟩

end Rounds

/-! ## Alternatives -/

theorem exploredAt_part {part : Part} (hfirst : ∀ s ∈ part.firsts, view.Explored tokens s)
    (hbelow : ∀ left, left <:+ tokens → left.length < tokens.length → ∀ s, view.Explored left s) :
    ExploredAt part (view.part · part) tokens := by
  cases part with
  | one s => exact hfirst s (List.mem_singleton_self s)
  | many repetition => exact .many hfirst hbelow

theorem Explores.alternative (hne : parts ≠ [])
    (hfirst : ∀ part ∈ parts.head?, ∀ s ∈ part.firsts, view.Explored tokens s)
    (hbelow : ∀ left, left <:+ tokens → left.length < tokens.length → ∀ s, view.Explored left s) :
    Explores [parts] tokens (.start tokens.length) (view.alternative parts tokens.length) := by
  obtain ⟨part, parts, rfl⟩ := List.exists_cons_of_ne_nil hne
  have h : Explores [(part :: parts).map id] tokens (.start tokens.length)
      (view.alternative (part :: parts) tokens.length) := Explores.foldl_start rfl
    (exploredAt_part (hfirst part rfl) hbelow) fun later _ left hleft hlength =>
      exploredAt_part (fun s _ => hbelow left hleft hlength s) fun last hlast hshorter =>
        hbelow last (hlast.trans hleft) (Nat.lt_trans hshorter hlength)
  rwa [List.map_id] at h

theorem calls_close : (View.close n e).calls = e.calls + if n.rule? = some .call then 1 else 0 := by
  cases n <;> rfl

theorem Explores.search (hsize : view.below.size + 1 = tokens.length)
    (hfirst : ∀ parts ∈ n.alternatives, ∀ part ∈ parts.head?, ∀ s ∈ part.firsts,
      view.Explored tokens s)
    (hbelow : ∀ left, left <:+ tokens → left.length < tokens.length → ∀ s, view.Explored left s) :
    Explores [[.node n]] tokens (.start tokens.length) (view.search n) := by
  have h : Explores (n.alternatives.zipIdx.map Prod.fst) tokens (.start tokens.length)
      (n.alternatives.zipIdx.foldr
        (fun pair others => ((view.alternative pair.1 tokens.length).withOrder pair.2).merge others)
        (.nothing tokens.length)) := by
    refine Explores.foldr_merge rfl fun pair hpair => ?_
    have hparts := List.fst_mem_of_mem_zipIdx hpair
    have halternative := Explores.alternative (n.ne_nil_of_mem_alternatives _ hparts)
      (hfirst _ hparts) hbelow
    exact halternative.map fun _ => ⟨rfl, rfl, rfl⟩
  rw [List.zipIdx_map_fst] at h
  rw [View.search, hsize]
  constructor
  case sound =>
    intro g hg
    obtain ⟨f, hf, rfl⟩ := List.mem_map.mp hg
    obtain ⟨inside, left, ⟨alternative, hmem, hder⟩, hrest, hparts, hcalls⟩ := h.sound f hf
    have hclose : (View.close n f).parts = n.wrap f.parts := rfl
    refine ⟨n.wrap inside, left, anyOf_singleton.mpr ?_, hrest, ?_, ?_⟩
    · exact Derives.node_iff.mpr ⟨alternative, inside, hmem, hder, rfl⟩
    · simp [hclose, hparts, Ending.start]
    · rw [calls_close, nodesOf_wrap, hcalls, Nat.add_assoc]
  case complete =>
    intro sketches left hnode
    obtain ⟨alternative, inside, hmem, hder, rfl⟩ :=
      Derives.node_iff.mp (anyOf_singleton.mp hnode)
    obtain ⟨f, hf, hrest, hcalls⟩ := h.complete ⟨alternative, hmem, hder⟩
    refine ⟨View.close n f, List.mem_map_of_mem hf, hrest, ?_⟩
    rw [calls_close, nodesOf_wrap]
    omega
  case reached =>
    obtain ⟨before, after, htokens, hafter, hbegins⟩ := h.reached
    refine ⟨before, after, htokens, hafter, hbegins.imp_right ?_⟩
    rintro ⟨more, inside, alternative, hmem, hder⟩
    exact ⟨more, n.wrap inside, anyOf_singleton.mpr
      (Derives.node_iff.mpr ⟨alternative, inside, hmem, hder, rfl⟩)⟩
  case farthest =>
    rintro before after htokens ⟨more, sketches, hnode⟩
    obtain ⟨alternative, inside, hmem, hder, rfl⟩ :=
      Derives.node_iff.mp (anyOf_singleton.mp hnode)
    exact h.farthest htokens ⟨more, inside, alternative, hmem, hder⟩

/-! ## The cells of a chart -/

theorem Explores.nothing {choices : List (List Part)}
    (h : ∀ {sketches left}, ¬ AnyOf choices tokens sketches left)
    (hbegins : ∀ before, before <+: tokens → Begins choices before → before = [])
    (hrest : rest = tokens.length) : Explores choices tokens e (.nothing rest) := by
  constructor
  case sound => exact fun f hf => absurd hf List.not_mem_nil
  case complete => exact fun hder => absurd hder h
  case reached => exact ⟨[], tokens, rfl, hrest, .inl rfl⟩
  case farthest =>
    rintro before after rfl hbefore
    obtain rfl := hbegins _ (List.prefix_append _ _) hbefore
    exact Nat.le_of_eq hrest

theorem Explores.token {kind : Terminal} {token : Token} {left : List Token}
    (hkind : token.kind = kind) :
    Explores [[.leaf kind]] (token :: left) (.start (left.length + 1))
      ⟨[⟨left.length, 0, [.leaf token], 0, left.length + 1⟩], left.length⟩ := by
  have hder : ∀ rest, Derives Grammatical [.leaf kind] (token :: rest) [.leaf token] rest :=
    fun rest => .token hkind .nil
  constructor
  case sound =>
    intro f hf
    rw [List.mem_singleton.mp hf]
    exact ⟨[.leaf token], left, anyOf_singleton.mpr (hder left), rfl, rfl, rfl⟩
  case complete =>
    intro sketches rest hother
    obtain ⟨_, -, hcons, rfl⟩ := Derives.leaf_iff.mp (anyOf_singleton.mp hother)
    obtain ⟨rfl, rfl⟩ := List.cons.inj hcons
    exact ⟨_, List.mem_singleton_self _, rfl, Nat.le_refl _⟩
  case reached =>
    exact ⟨[token], left, rfl, rfl, .inr ⟨[], [.leaf token], anyOf_singleton.mpr (hder [])⟩⟩
  case farthest =>
    rintro before after htokens ⟨more, sketches, hother⟩
    obtain ⟨_, -, hcons, -⟩ := Derives.leaf_iff.mp (anyOf_singleton.mp hother)
    have hlength := congrArg List.length htokens
    have hone := congrArg List.length hcons
    simp only [List.length_cons, List.length_append, List.length_nil] at hlength hone ⊢
    omega

theorem Explores.no_token {kind : Terminal} (h : ∀ token ∈ tokens.head?, token.kind ≠ kind) :
    Explores [[.leaf kind]] tokens e (.nothing tokens.length) := by
  refine Explores.nothing (fun hder => ?_) (fun before hbefore hmore => ?_) rfl
  · obtain ⟨token, hkind, rfl, -⟩ := Derives.leaf_iff.mp (anyOf_singleton.mp hder)
    exact h token rfl hkind
  · obtain ⟨more, sketches, hder⟩ := hmore
    cases before with
    | nil => rfl
    | cons first before =>
      obtain ⟨_, hkind, hcons, -⟩ := Derives.leaf_iff.mp (anyOf_singleton.mp hder)
      obtain ⟨rfl, -⟩ := List.cons.inj hcons
      obtain ⟨after, rfl⟩ := hbefore
      exact absurd hkind (h first rfl)

theorem explored_terminal {kind : Terminal} (h : view.token? left.length = left.head?) :
    view.Explored left (.terminal kind) := by
  rw [View.Explored, ExploredAt]
  cases left with
  | nil => exact .no_token fun _ hnone => absurd hnone (Option.not_mem_none _)
  | cons token left =>
    have hsymbol : view.symbol (token :: left).length (.terminal kind) = if token.kind = kind then
        ⟨[⟨left.length, 0, [.leaf token], 0, left.length + 1⟩], left.length⟩
        else .nothing (left.length + 1) := by
      simp only [View.symbol, h]
      rfl
    rw [hsymbol]
    split
    case isTrue hkind => exact .token hkind
    case isFalse hkind => exact .no_token fun first hfirst => Option.some.inj hfirst ▸ hkind

def Symbol.isBefore (n : Nonterminal) : Symbol → Bool
  | .terminal _ => true
  | .nonterminal m => m.ctorIdx < n.ctorIdx

/-- A search asks only for nonterminals before its own at its own place. -/
theorem isBefore_of_mem_firsts (n : Nonterminal) : ∀ parts ∈ n.alternatives,
    ∀ part ∈ parts.head?, ∀ s ∈ part.firsts, s.isBefore n := by
  cases n <;> decide

namespace Chart

variable {token : Token}

theorem token_view_suffix (hleft : left <:+ token :: tokens) :
    ((ofTokens tokens).view token n).token? left.length = left.head? := by
  obtain ⟨before, hleft⟩ := hleft
  cases left with
  | nil => rfl
  | cons t left =>
    rw [List.length_cons, token_view, ← hleft]
    simp

theorem found_view_suffix (hleft : left <:+ tokens) :
    ((ofTokens tokens).view token n).found m left.length = (ofTokens left).found m left.length := by
  obtain ⟨before, rfl⟩ := hleft
  rw [found_view_below (by simp [size_ofTokens]), found_append (Nat.le_refl _)]

theorem explores_found (tokens : List Token) (n : Nonterminal) :
    Explores [[.node n]] tokens (.start tokens.length)
      ((ofTokens tokens).found n tokens.length) := by
  induction hlength : tokens.length using Nat.strongRecOn generalizing tokens n with
  | ind length ih =>
    subst hlength
    cases tokens with
    | nil =>
      refine Explores.nothing (fun hder => ?_) (fun _ hbefore _ => List.prefix_nil.mp hbefore) rfl
      exact absurd ((anyOf_singleton.mp hder).length_lt (List.cons_ne_nil _ _)) (Nat.not_lt_zero _)
    | cons token tokens =>
      induction hindex : n.ctorIdx using Nat.strongRecOn generalizing n with
      | ind index ihn =>
        have hsearch : (ofTokens (token :: tokens)).found n ((ofTokens tokens).size + 1) =
          ((ofTokens tokens).view token n).search n := found_add_top
        rw [size_ofTokens] at hsearch
        rw [List.length_cons, hsearch]
        have hsize : ((ofTokens tokens).view token n).below.size + 1 = (token :: tokens).length :=
          congrArg (· + 1) size_ofTokens
        refine Explores.search hsize (fun parts hparts part hpart s hs => ?_)
          (fun left hleft hshorter s => ?_)
        -- At the place of the search, the cells are those of the nonterminals before its own.
        · have hbefore := isBefore_of_mem_firsts n parts hparts part hpart s hs
          cases s with
          | terminal kind => exact explored_terminal (token_view_suffix (List.suffix_refl _))
          | nonterminal m =>
            have hm : m.ctorIdx < n.ctorIdx := of_decide_eq_true hbefore
            have hfound := ihn m.ctorIdx (hindex ▸ hm) m rfl
            rwa [List.length_cons, ← found_view_ofTokens hm] at hfound
        -- At a later place, they are those of a chart of fewer tokens.
        · cases s with
          | terminal kind => exact explored_terminal (token_view_suffix hleft)
          | nonterminal m =>
            have hlater : left <:+ tokens := (List.suffix_cons_iff.mp hleft).resolve_left fun h =>
              absurd (h ▸ hshorter) (Nat.lt_irrefl _)
            have hfound := ih left.length hshorter left m rfl
            rwa [← found_view_suffix hlater] at hfound

end Chart

end Calculator.Grammar
