import Calculator.Proofs.Grammar.Lexing
import Calculator.Proofs.Grammar.Reading

/-!
# A chart with more tokens behind

Tokens that come behind others add endings that read into them and change nothing about the endings
that do not. So the chart of some tokens is a window on the chart of a longer line around them.
-/

namespace Calculator.Grammar

namespace Sketch

mutual

/-- The same sketch further on in a source. -/
def shift (offset : Nat) : Sketch → Sketch
  | .leaf token => .leaf (token.shift offset)
  | .node rule parts => .node rule (shiftAll offset parts)

def shiftAll (offset : Nat) : List Sketch → List Sketch
  | [] => []
  | sketch :: sketches => sketch.shift offset :: shiftAll offset sketches

end

theorem shiftAll_eq_map (offset : Nat) (sketches : List Sketch) :
    shiftAll offset sketches = sketches.map (shift offset) := by
  induction sketches with
  | nil => rfl
  | cons sketch sketches ih => rw [shiftAll, ih, List.map_cons]

theorem shiftAll_append (offset : Nat) (a b : List Sketch) :
    shiftAll offset (a ++ b) = shiftAll offset a ++ shiftAll offset b := by
  simp only [shiftAll_eq_map, List.map_append]

end Sketch

section

variable {behind offset : Nat}

/-- The same ending with more tokens behind. -/
def Ending.lift (behind offset : Nat) (e : Ending) : Ending :=
  { e with
    rest := e.rest + behind
    parts := Sketch.shiftAll offset e.parts
    split := e.split + behind }

/-- The same endings with more tokens behind, and others that read into those. -/
def Found.Over (behind offset : Nat) (longer shorter : Found) : Prop :=
  ∃ low : List Ending, longer.ends = shorter.ends.map (Ending.lift behind offset) ++ low ∧
    ∀ e ∈ low, e.rest < behind

namespace Ending

variable {e f : Ending} {ends low : List Ending}

theorem beats_lift : (e.lift behind offset).beats (f.lift behind offset) = e.beats f := by
  have hsplit : decide ((e.lift behind offset).split < (f.lift behind offset).split) =
      decide (e.split < f.split) := decide_eq_decide.mpr Nat.add_lt_add_iff_right
  rw [beats, hsplit]
  rfl

theorem addTo_lift (hlow : ∀ f ∈ low, f.rest < behind) :
    addTo (e.lift behind offset) (ends.map (lift behind offset) ++ low) =
      (addTo e ends).map (lift behind offset) ++ low := by
  induction ends with
  | nil =>
    cases low with
    | nil => rfl
    | cons f low =>
      have hless : f.rest < (e.lift behind offset).rest :=
        Nat.lt_of_lt_of_le (hlow f List.mem_cons_self) (Nat.le_add_left _ _)
      exact if_pos hless
  | cons f ends ih =>
    simp only [List.map_cons, List.cons_append, addTo, beats_lift]
    have hless : (f.lift behind offset).rest < (e.lift behind offset).rest ↔ f.rest < e.rest :=
      Nat.add_lt_add_iff_right
    have heq : (f.lift behind offset).rest = (e.lift behind offset).rest ↔ f.rest = e.rest :=
      Nat.add_right_cancel_iff
    simp only [hless, heq, ih]
    split
    · rfl
    · split
      · split <;> rfl
      · rfl

theorem addTo_low (he : e.rest < behind) :
    addTo e (ends.map (lift behind offset) ++ low) =
      ends.map (lift behind offset) ++ addTo e low := by
  induction ends with
  | nil => rfl
  | cons f ends ih =>
    have hmore : e.rest < (f.lift behind offset).rest :=
      Nat.lt_of_lt_of_le he (Nat.le_add_left _ _)
    rw [List.map_cons, List.cons_append, addTo, if_neg (Nat.lt_asymm hmore),
      if_neg (Nat.ne_of_gt hmore), ih, List.cons_append]

end Ending

namespace Found

variable {a b a' b' : Found}

/-- Endings that all read into the tokens behind. -/
theorem over_of_low {reach : Nat} (h : ∀ e ∈ a.ends, e.rest < behind) :
    Over behind offset a ⟨[], reach⟩ := ⟨a.ends, rfl, h⟩

theorem Over.low (h : Over behind offset a a') (hnil : a'.ends = []) :
    ∀ e ∈ a.ends, e.rest < behind := by
  obtain ⟨low, hends, hlow⟩ := h
  rw [hends, hnil]
  exact hlow

theorem over_merge (ha : Over behind offset a a') (hb : Over behind offset b b') :
    Over behind offset (merge a b) (merge a' b') := by
  obtain ⟨lowA, hendsA, hlowA⟩ := ha
  obtain ⟨lowB, hendsB, hlowB⟩ := hb
  have hlow : ∀ e ∈ lowA.foldr Ending.addTo lowB, e.rest < behind := by
    intro e he
    have hmem : e ∈ (merge ⟨lowA, 0⟩ ⟨lowB, 0⟩).ends := he
    exact (mem_merge hmem).elim (hlowA e) (hlowB e)
  refine ⟨lowA.foldr Ending.addTo lowB, ?_, hlow⟩
  have hfirst : lowA.foldr Ending.addTo b.ends =
      b'.ends.map (Ending.lift behind offset) ++ lowA.foldr Ending.addTo lowB := by
    rw [hendsB]
    clear hlow hendsA
    induction lowA with
    | nil => rfl
    | cons e lowA ih =>
      obtain ⟨he, hlowA⟩ := List.forall_mem_cons.mp hlowA
      rw [List.foldr_cons, ih hlowA, Ending.addTo_low he, List.foldr_cons]
  change a.ends.foldr Ending.addTo b.ends =
    (a'.ends.foldr Ending.addTo b'.ends).map (Ending.lift behind offset) ++ _
  rw [hendsA, List.foldr_append, hfirst]
  clear hendsA
  induction a'.ends with
  | nil => rfl
  | cons e ends ih =>
    rw [List.map_cons, List.foldr_cons, ih, Ending.addTo_lift hlow, List.foldr_cons]

theorem over_foldr_merge {α : Type} {f f' : α → Found} {steps : List α}
    (hstep : ∀ s ∈ steps, Over behind offset (f s) (f' s)) (h : Over behind offset a a') :
    Over behind offset (steps.foldr (fun s others => (f s).merge others) a)
      (steps.foldr (fun s others => (f' s).merge others) a') := by
  induction steps with
  | nil => exact h
  | cons s steps ih =>
    obtain ⟨hfirst, hothers⟩ := List.forall_mem_cons.mp hstep
    exact over_merge hfirst (ih hothers)

/-- Changes that do not touch what is left. -/
theorem Over.map (h : Over behind offset a a') {g g' : Ending → Ending} {reach reach' : Nat}
    (hlift : ∀ e, g (e.lift behind offset) = (g' e).lift behind offset)
    (hrest : ∀ e, (g e).rest = e.rest) :
    Over behind offset ⟨a.ends.map g, reach⟩ ⟨a'.ends.map g', reach'⟩ := by
  obtain ⟨low, hends, hlow⟩ := h
  refine ⟨low.map g, ?_, ?_⟩
  · simp only [hends, List.map_append, List.map_map, Function.comp_def, hlift]
  · intro e he
    obtain ⟨f, hf, rfl⟩ := List.mem_map.mp he
    rw [hrest]
    exact hlow f hf

theorem Over.withOrder (h : Over behind offset a a') (order : Nat) :
    Over behind offset (a.withOrder order) (a'.withOrder order) :=
  h.map (fun _ => rfl) fun _ => rfl

/-- Going on, where what follows the tokens behind reads into them. -/
theorem Over.extend {next next' : Nat → Found} (h : Over behind offset a a')
    (hnext : ∀ q, Over behind offset (next (q + behind)) (next' q))
    (hlow : ∀ q < behind, ∀ e ∈ (next q).ends, e.rest < behind) :
    Over behind offset (View.extend next a) (View.extend next' a') := by
  obtain ⟨low, hends, hlowA⟩ := h
  unfold View.extend
  rw [hends, List.foldr_append]
  clear hends
  induction a'.ends with
  | nil =>
    apply over_of_low
    induction low with
    | nil => simp
    | cons e low ih =>
      obtain ⟨he, hlowA⟩ := List.forall_mem_cons.mp hlowA
      intro g hg
      rcases mem_merge hg with hg | hg
      · obtain ⟨f, hf, rfl⟩ := List.mem_map.mp hg
        exact hlow e.rest he f hf
      · exact ih hlowA g hg
  | cons e ends ih =>
    refine over_merge ((hnext e.rest).map (fun f => ?_) fun _ => rfl) ih
    simp [Ending.lift, Sketch.shiftAll_append]

theorem Over.foldl_extend {α : Type} {next next' : α → Nat → Found} {steps : List α}
    (h : Over behind offset a a')
    (hnext : ∀ step ∈ steps, ∀ q, Over behind offset (next step (q + behind)) (next' step q))
    (hlow : ∀ step ∈ steps, ∀ q < behind, ∀ e ∈ (next step q).ends, e.rest < behind) :
    Over behind offset (steps.foldl (fun found step => View.extend (next step) found) a)
      (steps.foldl (fun found step => View.extend (next' step) found) a') := by
  induction steps generalizing a a' with
  | nil => exact h
  | cons step steps ih =>
    obtain ⟨hstep, hsteps⟩ := List.forall_mem_cons.mp hnext
    obtain ⟨hlowStep, hlowSteps⟩ := List.forall_mem_cons.mp hlow
    exact ih (h.extend hstep hlowStep) hsteps hlowSteps

end Found

/-! ## Searches -/

/-- Fewer tokens are left than before. -/
def Falls (place : Nat) (_ : List Sketch) (rest : Nat) : Prop := rest < place

theorem Falls.composes : Composes Falls := fun _ _ _ _ _ hfirst hsecond =>
  Nat.lt_trans hsecond hfirst

/-- A view on the same tokens with more behind. -/
structure View.Over (behind offset : Nat) (longer shorter : View) : Prop where
  size : longer.below.size = shorter.below.size + behind
  token : ∀ q, longer.token? (q + behind + 1) = (shorter.token? (q + 1)).map (Token.shift offset)
  found : ∀ m q, Found.Over behind offset (longer.found m (q + behind)) (shorter.found m q)
  falls : ∀ m q, (shorter.found m q).Holds Falls q
  longer_falls : ∀ m q, (longer.found m q).Holds Falls q

namespace View

theorem falls_symbol {view : View} (h : ∀ m q, (view.found m q).Holds Falls q) (s : Symbol)
    (q : Nat) : (view.symbol q s).Holds Falls q :=
  holds_symbol (fun _ _ rest _ _ _ => Nat.lt_succ_self rest) fun m _ => h m q

theorem rest_lt_of_round {view : View} {rounds : List (List Symbol)} {shift : Nat} {e f : Ending}
    (hfound : ∀ m q, (view.found m q).Holds Falls q) (hne : ∀ round ∈ rounds, round ≠ [])
    (hf : f ∈ (view.round rounds shift e).ends) : f.rest < e.rest := by
  obtain ⟨symbols, hmem, g, hg, hrest, -⟩ := mem_round hf
  rw [hrest]
  cases symbols with
  | nil => exact absurd rfl (hne [] hmem)
  | cons s symbols =>
    have hfirst : (extend (view.symbol · s) ⟨[e], e.rest⟩).Holds Falls e.rest := by
      intro a ha
      obtain ⟨b, hb, c, hc, hrest, -⟩ := mem_extend ha
      rw [hrest]
      rw [List.mem_singleton.mp hb] at hc
      exact falls_symbol hfound s e.rest c hc
    cases symbols with
    | nil => exact hfirst g hg
    | cons t symbols =>
      exact holds_foldl Falls.composes (List.cons_ne_nil t symbols)
        (fun s _ q => falls_symbol hfound s q) hfirst.orStart g hg

variable {longer shorter : View} (h : View.Over behind offset longer shorter)

include h

theorem Over.symbol (s : Symbol) (q : Nat) :
    Found.Over behind offset (longer.symbol (q + behind) s) (shorter.symbol q s) := by
  cases s with
  | nonterminal m => exact h.found m q
  | terminal kind =>
    cases q with
    | zero =>
      apply Found.over_of_low
      intro e he
      rw [Nat.zero_add] at he
      exact falls_symbol h.longer_falls (.terminal kind) behind e he
    | succ q =>
      rw [Nat.add_right_comm]
      simp only [View.symbol, h.token]
      cases shorter.token? (q + 1) with
      | none => exact ⟨[], rfl, by simp⟩
      | some t =>
        simp only [Option.map_some]
        by_cases hkind : t.kind = kind
        · have hshift : (t.shift offset).kind = kind := hkind
          rw [if_pos hkind, if_pos hshift]
          refine ⟨[], ?_, by simp⟩
          simp [Ending.lift, Sketch.shiftAll, Sketch.shift, Nat.add_right_comm]
        · have hshift : (t.shift offset).kind ≠ kind := hkind
          rw [if_neg hkind, if_neg hshift]
          exact ⟨[], rfl, by simp⟩

theorem Over.low_symbol (s : Symbol) : ∀ q < behind, ∀ e ∈ (longer.symbol q s).ends,
    e.rest < behind := fun q hq e he =>
  Nat.lt_trans (falls_symbol h.longer_falls s q e he) hq

section Rounds

variable {rounds : List (List Symbol)} (hne : ∀ round ∈ rounds, round ≠ [])

theorem Over.round (shift : Nat) (e : Ending) :
    Found.Over behind offset (longer.round rounds shift (e.lift behind offset))
      (shorter.round rounds shift e) := by
  apply Found.over_foldr_merge
  · intro pair _
    refine Found.Over.map (Found.Over.withOrder ?_ _) (fun _ => rfl) fun _ => rfl
    exact Found.Over.foldl_extend ⟨[], rfl, by simp⟩ (fun s _ q => h.symbol s q)
      fun s _ => h.low_symbol s
  · exact ⟨[], rfl, by simp⟩

include hne

/-- Rounds after endings that read into the tokens behind do so too. -/
theorem Over.low_moreRounds {pending : Found} (fuel : Nat)
    (hpending : ∀ e ∈ pending.ends, e.rest < behind) :
    ∀ e ∈ (longer.moreRounds rounds fuel pending).ends, e.rest < behind := by
  have hsymbol : ∀ s ∈ rounds.flatten, ∀ q, (longer.symbol q s).Holds Falls q :=
    fun s _ q => falls_symbol h.longer_falls s q
  have hholds : pending.Holds Falls behind := hpending
  exact holds_moreRounds Falls.composes hne hsymbol hholds

theorem Over.moreRounds {fuel : Nat} {pending pending' : Found}
    (hpending : Found.Over behind offset pending pending')
    (hfuel : ∀ e ∈ pending'.ends, e.rest < fuel) (hdescending : Descending pending'.ends) :
    Found.Over behind offset (longer.moreRounds rounds (fuel + behind) pending)
      (shorter.moreRounds rounds fuel pending') := by
  -- The first pending ending leaves most tokens, so the fuel goes down with it.
  induction fuel generalizing pending pending' with
  | zero =>
    have hnil : pending'.ends = [] := by
      rw [List.eq_nil_iff_forall_not_mem]
      exact fun e he => absurd (hfuel e he) (Nat.not_lt_zero _)
    exact Found.over_of_low (h.low_moreRounds hne _ (hpending.low hnil))
  | succ fuel ih =>
    cases hends : pending'.ends with
    | nil =>
      have hresult : shorter.moreRounds rounds (fuel + 1) pending' = ⟨[], pending'.reach⟩ := by
        rw [View.moreRounds, hends]
        cases pending'
        cases hends
        rfl
      rw [hresult]
      exact Found.over_of_low (h.low_moreRounds hne _ (hpending.low hends))
    | cons e others =>
      obtain ⟨low, hlonger, hlow⟩ := hpending
      rw [hends] at hlonger hfuel hdescending
      obtain ⟨hfirst, hothers⟩ := List.pairwise_cons.mp hdescending
      have hnext : Found.Over behind offset
          ((longer.round rounds rounds.length (e.lift behind offset)).merge
            ⟨others.map (Ending.lift behind offset) ++ low, pending.reach⟩)
          ((shorter.round rounds rounds.length e).merge ⟨others, pending'.reach⟩) :=
        Found.over_merge (h.round rounds.length e) ⟨low, rfl, hlow⟩
      have hless : ∀ f ∈ ((shorter.round rounds rounds.length e).merge
          ⟨others, pending'.reach⟩).ends, f.rest < e.rest := by
        intro f hf
        rcases Found.mem_merge hf with hf | hf
        · exact rest_lt_of_round h.falls hne hf
        · exact hfirst f hf
      have he : e.rest ≤ fuel := Nat.le_of_lt_succ (hfuel e List.mem_cons_self)
      obtain ⟨more, hmore, hlowMore⟩ := ih hnext
        (fun f hf => Nat.lt_of_lt_of_le (hless f hf) he) (Found.descending_merge hothers)
      refine ⟨more, ?_, hlowMore⟩
      rw [Nat.add_right_comm, View.moreRounds, View.moreRounds, hends, hlonger]
      exact congrArg (e.lift behind offset :: ·) hmore

end Rounds

theorem Over.part (p : Part) (q : Nat) :
    Found.Over behind offset (longer.part (q + behind) p) (shorter.part q p) := by
  cases p with
  | one s => exact h.symbol s q
  | many r =>
    apply h.moreRounds r.ne_nil_of_mem_rounds (h.round 0 (.start q))
    · exact fun e he => rest_lt_of_round h.falls r.ne_nil_of_mem_rounds he
    · exact descending_round

theorem Over.low_part (p : Part) : ∀ q < behind, ∀ e ∈ (longer.part q p).ends,
    e.rest < behind := by
  intro q hq e he
  have hpart : (longer.part q p).Holds Falls q :=
    holds_part Falls.composes fun s _ q => falls_symbol h.longer_falls s q
  exact Nat.lt_trans (hpart e he) hq

theorem Over.alternative (parts : List Part) (q : Nat) :
    Found.Over behind offset (longer.alternative parts (q + behind))
      (shorter.alternative parts q) :=
  Found.Over.foldl_extend ⟨[], rfl, by simp⟩ (fun p _ q => h.part p q) fun p _ => h.low_part p

/-- A search with more tokens behind finds the same, and endings that read into those. -/
theorem Over.search (n : Nonterminal) :
    Found.Over behind offset (longer.search n) (shorter.search n) := by
  unfold View.search
  refine Found.Over.map ?_ (fun e => ?_) fun _ => rfl
  · rw [h.size, Nat.add_right_comm]
    exact Found.over_foldr_merge (fun pair _ => (h.alternative pair.1 _).withOrder pair.2)
      ⟨[], rfl, by simp⟩
  · unfold close Ending.lift
    cases n.rule? <;> rfl

end View

/-! ## Charts -/

namespace Chart

theorem falls_found (tokens : List Token) (n : Nonterminal) (place : Nat) :
    ((ofTokens tokens).found n place).Holds Falls place :=
  fun _ he => (reading_of_found he).lt

theorem falls_view (token : Token) (tokens : List Token) (n m : Nonterminal) (place : Nat) :
    (((ofTokens tokens).view token n).found m place).Holds Falls place := by
  intro e he
  rcases mem_ends_view he with ⟨-, he⟩ | ⟨rfl, -, he⟩
  · exact falls_found tokens m place e he
  · exact falls_found (token :: tokens) m _ e he

theorem over_view {token : Token} {tokens after : List Token} {n : Nonterminal}
    (hbelow : ∀ m q, q ≤ tokens.length → Found.Over after.length offset
      ((ofTokens (tokens.map (Token.shift offset) ++ after)).found m (q + after.length))
      ((ofTokens tokens).found m q))
    (htop : ∀ m : Nonterminal, m.ctorIdx < n.ctorIdx → Found.Over after.length offset
      ((ofTokens ((token :: tokens).map (Token.shift offset) ++ after)).found m
        (tokens.length + 1 + after.length))
      ((ofTokens (token :: tokens)).found m (tokens.length + 1))) :
    View.Over after.length offset
      ((ofTokens (tokens.map (Token.shift offset) ++ after)).view (token.shift offset) n)
      ((ofTokens tokens).view token n) := by
  have hlength : (ofTokens (tokens.map (Token.shift offset) ++ after)).size =
      tokens.length + after.length := by simp
  refine ⟨?_, fun q => ?_, fun m q => ?_, falls_view _ _ n, falls_view _ _ n⟩
  · change (ofTokens _).size = (ofTokens tokens).size + after.length
    rw [hlength, size_ofTokens]
  · rw [token_view, token_view, ← List.cons_append, ← List.map_cons, List.reverse_append,
      List.getElem?_append_right (by simp), List.length_reverse, Nat.add_sub_cancel,
      ← List.map_reverse, List.getElem?_map]
  · by_cases hnil : tokens.length + 1 < q ∨ (q = tokens.length + 1 ∧ n.ctorIdx ≤ m.ctorIdx)
    · refine ⟨[], ?_, by simp⟩
      rw [ends_view_eq_nil (by rw [hlength]; omega),
        ends_view_eq_nil (by rwa [size_ofTokens])]
      rfl
    · by_cases hq : q ≤ tokens.length
      · rw [found_view_below (by rw [hlength]; omega), found_view_below (by rwa [size_ofTokens])]
        exact hbelow m q hq
      · obtain rfl : q = tokens.length + 1 := by omega
        have hearlier : m.ctorIdx < n.ctorIdx := by omega
        have hplace : tokens.length + 1 + after.length =
            (tokens.map (Token.shift offset) ++ after).length + 1 := by
          simp
          omega
        have htop := htop m hearlier
        rw [hplace] at htop ⊢
        rw [found_view_ofTokens hearlier, found_view_ofTokens hearlier]
        exact htop

/-- The chart of some tokens, moved, is a window on the chart with more tokens behind. -/
theorem over_found {after : List Token} (tokens : List Token) (n : Nonterminal) (place : Nat)
    (hplace : place ≤ tokens.length) :
    Found.Over after.length offset
      ((ofTokens (tokens.map (Token.shift offset) ++ after)).found n (place + after.length))
      ((ofTokens tokens).found n place) := by
  induction tokens generalizing n place with
  | nil =>
    obtain rfl := Nat.le_zero.mp hplace
    apply Found.over_of_low
    rw [Nat.zero_add]
    exact falls_found _ n after.length
  | cons token tokens ih =>
    have htop : ∀ n : Nonterminal, Found.Over after.length offset
        ((ofTokens ((token :: tokens).map (Token.shift offset) ++ after)).found n
          (tokens.length + 1 + after.length))
        ((ofTokens (token :: tokens)).found n (tokens.length + 1)) := by
      intro n
      induction hindex : n.ctorIdx using Nat.strongRecOn generalizing n with
      | ind index ihn =>
        have hview := over_view ih fun m hm => ihn m.ctorIdx (hindex ▸ hm) m rfl
        have hsearch := hview.search n
        rw [← found_add_top, ← found_add_top, size_ofTokens, size_ofTokens, List.length_append,
          List.length_map, Nat.add_right_comm] at hsearch
        exact hsearch
    rcases Nat.lt_or_eq_of_le hplace with hlt | rfl
    · have hq : place ≤ tokens.length := Nat.le_of_lt_succ hlt
      rw [List.map_cons, List.cons_append, ofTokens, ofTokens, found_add_below (by simp; omega),
        found_add_below (by rwa [size_ofTokens])]
      exact ih n place hq
    · exact htop n

end Chart

end

end Calculator.Grammar
