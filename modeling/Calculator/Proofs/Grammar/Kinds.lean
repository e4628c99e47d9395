import Calculator.Grammar.Parser

/-!
# The kinds of tokens

The grammar looks at the kinds of tokens alone. Other tokens of the same kinds are read in the same
way, and rejected at the same place.
-/

namespace Calculator.Grammar

namespace Sketch

mutual

/-- The same sketch of other tokens. -/
def map (f : Token → Token) : Sketch → Sketch
  | .leaf token => .leaf (f token)
  | .node rule parts => .node rule (mapAll f parts)

def mapAll (f : Token → Token) : List Sketch → List Sketch
  | [] => []
  | sketch :: sketches => sketch.map f :: mapAll f sketches

end

theorem mapAll_eq_map (f : Token → Token) (sketches : List Sketch) :
    mapAll f sketches = sketches.map (map f) := by
  induction sketches with
  | nil => rfl
  | cons sketch sketches ih => rw [mapAll, ih, List.map_cons]

theorem mapAll_append (f : Token → Token) (a b : List Sketch) :
    mapAll f (a ++ b) = mapAll f a ++ mapAll f b := by
  simp only [mapAll_eq_map, List.map_append]

end Sketch

/-! ## Charts of other tokens -/

def Ending.map (f : Token → Token) (e : Ending) : Ending :=
  { e with parts := Sketch.mapAll f e.parts }

def Found.map (f : Token → Token) (found : Found) : Found :=
  ⟨found.ends.map (Ending.map f), found.reach⟩

def Cell.map (f : Token → Token) (cell : Cell) : Cell :=
  ⟨f cell.token, cell.found.map (Found.map f)⟩

def View.map (f : Token → Token) (view : View) : View :=
  ⟨view.below.map (Cell.map f), f view.token, view.here.map (Found.map f)⟩

variable {f : Token → Token}

theorem Ending.addTo_map (e : Ending) (ends : List Ending) :
    addTo (e.map f) (ends.map (Ending.map f)) = (addTo e ends).map (Ending.map f) := by
  induction ends with
  | nil => rfl
  | cons g ends ih =>
    have hbeats : (e.map f).beats (g.map f) = e.beats g := rfl
    have hrest (e : Ending) : (e.map f).rest = e.rest := rfl
    simp only [List.map_cons, addTo, hbeats, hrest, ih]
    split
    · rfl
    · split
      · split <;> rfl
      · rfl

namespace Found

/-- What comes after an ending goes on from it. -/
def behind (e : Ending) (more : Found) : Found :=
  ⟨more.ends.map fun g =>
    { g with calls := e.calls + g.calls, parts := g.parts ++ e.parts, order := 0, split := e.rest },
    more.reach⟩

theorem extend_eq (next : Nat → Found) (found : Found) : View.extend next found =
    found.ends.foldr (fun e others => ((next e.rest).behind e).merge others)
      ⟨[], found.reach⟩ := rfl

@[simp]
theorem nothing_map (place : Nat) : (nothing place).map f = nothing place := rfl

theorem merge_map (a b : Found) : (a.map f).merge (b.map f) = (a.merge b).map f := by
  have hends : (a.ends.map (Ending.map f)).foldr Ending.addTo (b.ends.map (Ending.map f)) =
      (a.ends.foldr Ending.addTo b.ends).map (Ending.map f) := by
    induction a.ends with
    | nil => rfl
    | cons e ends ih => rw [List.map_cons, List.foldr_cons, ih, Ending.addTo_map, List.foldr_cons]
  exact congrArg (Found.mk · _) hends

theorem foldr_merge_map {α : Type} {g g' : α → Found} {steps : List α}
    (h : ∀ s, g' s = (g s).map f) (start : Found) :
    steps.foldr (fun s others => (g' s).merge others) (start.map f) =
      (steps.foldr (fun s others => (g s).merge others) start).map f := by
  induction steps with
  | nil => rfl
  | cons s steps ih => rw [List.foldr_cons, ih, h, merge_map, List.foldr_cons]

theorem withOrder_map (order : Nat) (found : Found) :
    (found.map f).withOrder order = (found.withOrder order).map f := by
  simp only [withOrder, map, List.map_map]
  rfl

theorem behind_map (e : Ending) (more : Found) :
    (more.map f).behind (e.map f) = (more.behind e).map f := by
  simp only [behind, map, List.map_map]
  congr 2
  funext g
  simp only [Function.comp, Ending.map, Sketch.mapAll_append]

theorem extend_map {next next' : Nat → Found} (h : ∀ q, next' q = (next q).map f)
    (found : Found) : View.extend next' (found.map f) = (View.extend next found).map f := by
  have hstep (e : Ending) :
      (next' (e.map f).rest).behind (e.map f) = ((next e.rest).behind e).map f := by
    rw [h, ← behind_map]
    rfl
  rw [extend_eq, extend_eq, map, List.foldr_map]
  exact foldr_merge_map hstep ⟨[], found.reach⟩

theorem foldl_extend_map {α : Type} {next next' : α → Nat → Found} {steps : List α}
    (h : ∀ step q, next' step q = (next step q).map f) (start : Found) :
    steps.foldl (fun found step => View.extend (next' step) found) (start.map f) =
      (steps.foldl (fun found step => View.extend (next step) found) start).map f := by
  induction steps generalizing start with
  | nil => rfl
  | cons step steps ih => rw [List.foldl_cons, extend_map (h step), ih, List.foldl_cons]

end Found

namespace View

theorem token?_map (view : View) (place : Nat) :
    (view.map f).token? place = (view.token? place).map f := by
  cases place with
  | zero => rfl
  | succ place =>
    simp only [token?, map, Array.size_map, Array.getElem?_map]
    split
    · rfl
    · cases view.below[place]? <;> rfl

theorem found_map (view : View) (n : Nonterminal) (place : Nat) :
    (view.map f).found n place = (view.found n place).map f := by
  cases place with
  | zero => rfl
  | succ place =>
    have hrow (row : Array Found) : (row.map (Found.map f)).getD n.ctorIdx (.nothing (place + 1)) =
        (row.getD n.ctorIdx (.nothing (place + 1))).map f := by
      simp only [Array.getD_eq_getD_getElem?, Array.getElem?_map]
      cases row[n.ctorIdx]? <;> rfl
    simp only [found, map, Array.size_map, Array.getElem?_map]
    split
    · exact hrow view.here
    · cases view.below[place]? with
      | none => rfl
      | some cell => exact hrow cell.found

variable (hf : ∀ token, (f token).kind = token.kind)

include hf

theorem symbol_map (view : View) (place : Nat) (s : Symbol) :
    (view.map f).symbol place s = (view.symbol place s).map f := by
  cases s with
  | nonterminal n => exact found_map view n place
  | terminal kind =>
    simp only [symbol, token?_map]
    cases view.token? place with
    | none => rfl
    | some token =>
      simp only [Option.map_some, hf]
      split <;> rfl

theorem round_map (view : View) (rounds : List (List Symbol)) (shift : Nat) (e : Ending) :
    (view.map f).round rounds shift (e.map f) = (view.round rounds shift e).map f := by
  have hstep (pair : List Symbol × Nat) :
      (⟨(((view.map f).symbols ⟨[e.map f], e.rest⟩ pair.1).withOrder (shift + pair.2)).ends.map
        fun g => { g with split := e.rest },
        (((view.map f).symbols ⟨[e.map f], e.rest⟩ pair.1).withOrder (shift + pair.2)).reach⟩ :
          Found) =
      Found.map f
        ⟨((view.symbols ⟨[e], e.rest⟩ pair.1).withOrder (shift + pair.2)).ends.map
          fun g => { g with split := e.rest },
          ((view.symbols ⟨[e], e.rest⟩ pair.1).withOrder (shift + pair.2)).reach⟩ := by
    have hsymbols : (view.map f).symbols ⟨[e.map f], e.rest⟩ pair.1 =
        (view.symbols ⟨[e], e.rest⟩ pair.1).map f :=
      Found.foldl_extend_map (fun s q => symbol_map hf view q s) ⟨[e], e.rest⟩
    rw [hsymbols, Found.withOrder_map]
    simp only [Found.map, List.map_map]
    rfl
  exact Found.foldr_merge_map hstep (.nothing e.rest)

theorem moreRounds_map (view : View) (rounds : List (List Symbol)) (fuel : Nat)
    (pending : Found) : (view.map f).moreRounds rounds fuel (pending.map f) =
      (view.moreRounds rounds fuel pending).map f := by
  induction fuel generalizing pending with
  | zero => rfl
  | succ fuel ih =>
    obtain ⟨_ | ⟨e, others⟩, reach⟩ := pending
    · rfl
    · have hnext : ((view.map f).round rounds rounds.length (e.map f)).merge
          (Found.map f ⟨others, reach⟩) =
            ((view.round rounds rounds.length e).merge ⟨others, reach⟩).map f := by
        rw [round_map hf, Found.merge_map]
      have hmore := ih ((view.round rounds rounds.length e).merge ⟨others, reach⟩)
      rw [← hnext] at hmore
      exact congrArg (fun found : Found => (⟨e.map f :: found.ends, found.reach⟩ : Found)) hmore

theorem part_map (view : View) (place : Nat) (part : Part) :
    (view.map f).part place part = (view.part place part).map f := by
  cases part with
  | one s => exact symbol_map hf view place s
  | many r =>
    have hfirst := round_map hf view r.rounds 0 (.start place)
    have hmore := moreRounds_map hf view r.rounds place (view.round r.rounds 0 (.start place))
    rw [← hfirst] at hmore
    exact hmore

theorem search_map (view : View) (n : Nonterminal) :
    (view.map f).search n = (view.search n).map f := by
  have halternative (place : Nat) (pair : List Part × Nat) :
      ((view.map f).alternative pair.1 place).withOrder pair.2 =
        ((view.alternative pair.1 place).withOrder pair.2).map f := by
    have hparts : (view.map f).alternative pair.1 place = (view.alternative pair.1 place).map f :=
      Found.foldl_extend_map (fun p q => part_map hf view q p) ⟨[.start place], place⟩
    rw [hparts, Found.withOrder_map]
  have hclose (e : Ending) : close n (e.map f) = (close n e).map f := by
    unfold close Ending.map
    cases n.rule? <;> rfl
  have hsize : (view.map f).below.size = view.below.size := Array.size_map
  unfold search
  dsimp only
  rw [hsize, ← Found.nothing_map, Found.foldr_merge_map (halternative _)]
  simp only [Found.map, List.map_map]
  congr 2
  exact funext hclose

end View

namespace Chart

variable (hf : ∀ token, (f token).kind = token.kind)

include hf

theorem add_map (chart : Chart) (token : Token) :
    add (chart.map (Cell.map f)) (f token) = (add chart token).map (Cell.map f) := by
  have hrow (symbols : List Nonterminal) (here : Array Found) :
      symbols.foldl (fun here n => here.push
        (View.search ⟨chart.map (Cell.map f), f token, here⟩ n)) (here.map (Found.map f)) =
      (symbols.foldl (fun here n => here.push (View.search ⟨chart, token, here⟩ n)) here).map
        (Found.map f) := by
    induction symbols generalizing here with
    | nil => rfl
    | cons n symbols ih =>
      rw [List.foldl_cons, List.foldl_cons, ← ih, Array.map_push]
      congr 2
      exact View.search_map hf ⟨chart, token, here⟩ n
  have hall := hrow Nonterminal.all #[]
  rw [Array.map_empty] at hall
  rw [add, add, hall, Array.map_push]
  rfl

/-- The chart of other tokens of the same kinds. -/
theorem ofTokens_map (tokens : List Token) :
    ofTokens (tokens.map f) = (ofTokens tokens).map (Cell.map f) := by
  induction tokens with
  | nil => exact Array.map_empty.symm
  | cons token tokens ih => rw [List.map_cons, ofTokens, ih, add_map hf, ofTokens]

theorem top_map (tokens : List Token) (n : Nonterminal) :
    (ofTokens (tokens.map f)).top n = ((ofTokens tokens).top n).map f := by
  rw [ofTokens_map hf, top, top, Array.back?_map]
  cases (ofTokens tokens).back? with
  | none => rfl
  | some cell =>
    simp only [Option.map_some, Cell.map, Array.size_map, Array.getD_eq_getD_getElem?,
      Array.getElem?_map]
    cases cell.found[n.ctorIdx]? <;> rfl

end Chart

/-! ## Lines of other tokens -/

def Rejection.map (f : Token → Token) : Rejection → Rejection
  | token t => token (f t)
  | unfinished => unfinished

def Line.map (f : Token → Token) (line : Line) : Line :=
  ⟨line.body.map f, line.newline.map f⟩

section

variable (hf : ∀ token, (f token).kind = token.kind)

include hf

theorem Line.split_map (tokens : List Token) :
    Line.split (tokens.map f) = (Line.split tokens).map (Line.map f) := by
  induction tokens with
  | nil => rfl
  | cons token tokens ih =>
    simp only [List.map_cons, Line.split, hf, ih]
    split
    · rfl
    · cases Line.split tokens <;> rfl

theorem Line.read_map (line : Line) : (line.map f).read =
    (line.read.map (Sketch.mapAll f)).mapError (Rejection.map f) := by
  have hmark : ((line.newline.map f).map Sketch.leaf).toList =
      Sketch.mapAll f (line.newline.map Sketch.leaf).toList := by
    cases line.newline <;> rfl
  have hfind (ends : List Ending) : (ends.map (Ending.map f)).find? (fun e => e.rest = 0) =
      (ends.find? fun e => e.rest = 0).map (Ending.map f) := by
    rw [List.find?_map]
    rfl
  simp only [read, Line.map, hmark, List.isEmpty_map, Chart.top_map hf, Found.map, hfind,
    List.length_map, List.getElem?_map]
  split
  · rfl
  · cases ((Chart.ofTokens line.body).top .lineBody).ends.find? fun e => e.rest = 0 with
    | some e =>
      simp only [Option.map_some, Ending.map, ← Sketch.mapAll_append]
      rfl
    | none =>
      simp only [Option.map_none]
      cases line.body[line.body.length - ((Chart.ofTokens line.body).top .lineBody).reach]? <;>
        cases line.newline <;> rfl

/-- Other tokens of the same kinds have the same lines, or are rejected at the same one. -/
theorem readTokens_map (tokens : List Token) : readTokens (tokens.map f) =
    ((readTokens tokens).map (Sketch.mapAll f)).mapError (Rejection.map f) := by
  rw [readTokens, Line.split_map hf, readTokens]
  induction Line.split tokens with
  | nil => rfl
  | cons line lines ih =>
    rw [List.map_cons, readLines, readLines, ih, Line.read_map hf]
    cases line.read with
    | error rejection => rfl
    | ok parts => cases readLines lines <;> rfl

end

end Calculator.Grammar
