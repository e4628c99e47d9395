import Calculator.Proofs.Grammar.Completeness
import Calculator.Proofs.Grammar.Rereading

/-!
# The tokens that are accepted

Newlines are no tokens of a line body, so a script is read line by line. A line is accepted if its
body is derived, and its tree is the derivation that the chart has kept.
-/

namespace Calculator.Grammar

open Sketch

variable {tokens body rest before : List Token} {newline : Token} {line : Line}
  {lines : List Line} {parts sketches children : List Sketch} {source : String}

/-! ## The terminals of a derivation -/

theorem forall_symbols_round {P : Symbol → Prop} {repetition : Repetition} {round : List Symbol}
    (hround : round ∈ repetition.rounds) (h : ∀ s ∈ (Part.many repetition).symbols, P s) :
    ∀ part ∈ round.map Part.one, ∀ s ∈ part.symbols, P s := by
  rintro _ hpart _ hs
  obtain ⟨s, hmem, rfl⟩ := List.mem_map.mp hpart
  obtain rfl := List.mem_singleton.mp hs
  exact h _ (List.mem_flatten_of_mem hround hmem)

/-- What holds of all symbols of the alternatives holds of all tokens. -/
theorem Derives.forall_leaves {P : Symbol → Prop} {parts : List Part}
    (hclosed : ∀ n, P (.nonterminal n) → ∀ alternative ∈ n.alternatives, ∀ part ∈ alternative,
      ∀ s ∈ part.symbols, P s)
    (hparts : ∀ part ∈ parts, ∀ s ∈ part.symbols, P s)
    (h : Derives Grammatical parts tokens sketches rest) :
    ∀ t ∈ leavesOf sketches, P (.terminal t.kind) := by
  induction h with
  | nil => exact fun t ht => absurd ht List.not_mem_nil
  | token hkind _ ih =>
    obtain ⟨hfirst, hothers⟩ := List.forall_mem_cons.mp hparts
    intro t ht
    rw [leavesOf_append, List.mem_append] at ht
    rcases ht with ht | ht
    · obtain rfl := List.mem_singleton.mp ht
      exact hkind ▸ hfirst _ List.mem_cons_self
    · exact ih hothers t ht
  | node hmay _ _ ihfirst ihothers =>
    obtain ⟨hfirst, hothers⟩ := List.forall_mem_cons.mp hparts
    have hinside := ihfirst (hclosed _ (hfirst _ List.mem_cons_self) _ hmay)
    intro t ht
    rw [leavesOf_append, leavesOf_wrap, List.mem_append] at ht
    exact ht.elim (hinside t) (ihothers hothers t)
  | lastRound hround _ ih =>
    obtain ⟨hfirst, hothers⟩ := List.forall_mem_cons.mp hparts
    exact ih (List.forall_mem_append.mpr ⟨forall_symbols_round hround hfirst, hothers⟩)
  | nextRound hround _ ih =>
    have hfirst := hparts _ List.mem_cons_self
    exact ih (List.forall_mem_append.mpr ⟨forall_symbols_round hround hfirst, hparts⟩)

def NoNewline (tokens : List Token) : Prop := ∀ t ∈ tokens, t.kind ≠ .newline

theorem newline_not_mem_symbols (n : Nonterminal) : ∀ parts ∈ n.alternatives, ∀ part ∈ parts,
    ∀ s ∈ part.symbols, s ≠ .terminal .newline := by
  cases n <;> decide

theorem Derives.noNewline {n : Nonterminal}
    (h : Derives Grammatical [.node n] tokens sketches []) : NoNewline tokens := by
  rw [h.leaves, List.append_nil]
  intro t ht hkind
  refine h.forall_leaves (P := (· ≠ .terminal .newline)) (fun n _ => newline_not_mem_symbols n)
    ?_ t ht (congrArg Symbol.terminal hkind)
  rintro _ (_ | ⟨_, ⟨⟩⟩) _ (_ | ⟨_, ⟨⟩⟩)
  exact Symbol.noConfusion

/-! ## One line -/

/-- The newline at the end, the last child of the line. -/
def Line.mark (line : Line) : List Sketch := (line.newline.map Sketch.leaf).toList

/-- The body of the line is empty or derived. -/
def Line.Derives (line : Line) (children : List Sketch) : Prop :=
  ∃ parts, children = line.mark ++ parts ∧ (line.body = [] ∧ parts = [] ∨
    Grammar.Derives Grammatical [.node .lineBody] line.body parts [])

theorem Line.top_lineBody (body : List Token) : Explores [[.node .lineBody]] body
    (.start body.length) ((Chart.ofTokens body).top .lineBody) := by
  rw [Chart.top_eq_found, Chart.size_ofTokens]
  exact Chart.explores_found body .lineBody

/-- The ending that the chart has for all tokens of the body. -/
theorem Line.find?_eq_some {e : Ending}
    (h : ((Chart.ofTokens body).top .lineBody).ends.find? (·.rest = 0) = some e) :
    Grammar.Derives Grammatical [.node .lineBody] body e.parts [] := by
  obtain ⟨parts, left, hder, hrest, hparts, -⟩ :=
    (top_lineBody body).sound e (List.mem_of_find?_eq_some h)
  have hzero : e.rest = 0 := by simpa using List.find?_some h
  obtain rfl : left = [] := List.length_eq_zero_iff.mp (hrest.symm.trans hzero)
  rw [hparts, Ending.start, List.append_nil]
  exact anyOf_singleton.mp hder

theorem Line.find?_eq_none
    (h : ((Chart.ofTokens body).top .lineBody).ends.find? (·.rest = 0) = none) :
    ¬ Grammar.Derives Grammatical [.node .lineBody] body parts [] := by
  intro hder
  obtain ⟨e, he, hrest, -⟩ := (top_lineBody body).complete (anyOf_singleton.mpr hder)
  simpa [hrest] using List.find?_eq_none.mp h e he

theorem Line.derives_of_read (h : line.read = .ok children) : line.Derives children := by
  unfold read at h
  split at h
  case isTrue hempty =>
    cases h
    exact ⟨[], (List.append_nil _).symm, .inl ⟨List.isEmpty_iff.mp hempty, rfl⟩⟩
  case isFalse =>
    dsimp only at h
    split at h
    case h_1 e hfind =>
      cases h
      exact ⟨e.parts, rfl, .inr (find?_eq_some hfind)⟩
    case h_2 => split at h <;> cases h

theorem Line.read_of_derives (h : line.Derives children) : ∃ others, line.read = .ok others := by
  obtain ⟨parts, -, h⟩ := h
  unfold read
  split
  case isTrue => exact ⟨_, rfl⟩
  case isFalse hne =>
    dsimp only
    split
    case h_1 => exact ⟨_, rfl⟩
    case h_2 hfind =>
      rcases h with ⟨hempty, -⟩ | hder
      · exact absurd (List.isEmpty_iff.mpr hempty) hne
      · exact absurd hder (find?_eq_none hfind)

/-! ## The lines of a script -/

theorem NoNewline.or_first (tokens : List Token) : NoNewline tokens ∨
    ∃ body newline rest, tokens = body ++ newline :: rest ∧ NoNewline body ∧
      newline.kind = .newline := by
  induction tokens with
  | nil => exact .inl fun t ht => absurd ht List.not_mem_nil
  | cons token tokens ih =>
    by_cases htoken : token.kind = .newline
    · exact .inr ⟨[], token, tokens, rfl, fun t ht => absurd ht List.not_mem_nil, htoken⟩
    · refine ih.imp (fun h => List.forall_mem_cons.mpr ⟨htoken, h⟩) ?_
      rintro ⟨body, newline, rest, rfl, hbody, hnewline⟩
      exact ⟨token :: body, newline, rest, rfl, List.forall_mem_cons.mpr ⟨htoken, hbody⟩, hnewline⟩

/-- The tokens of a script end after a line, or they are the last line. -/
theorem Line.induction {P : List Token → Prop} (hnil : P [])
    (hlast : ∀ body, body ≠ [] → NoNewline body → P body)
    (hline : ∀ body newline rest, NoNewline body → newline.kind = .newline → P rest →
      P (body ++ newline :: rest)) (tokens : List Token) : P tokens := by
  induction hlength : tokens.length using Nat.strongRecOn generalizing tokens with
  | ind length ih =>
    rcases NoNewline.or_first tokens with h | ⟨body, newline, rest, rfl, hbody, hnewline⟩
    · by_cases hempty : tokens = []
      · exact hempty ▸ hnil
      · exact hlast tokens hempty h
    · refine hline body newline rest hbody hnewline (ih rest.length ?_ rest rfl)
      simp only [List.length_append, List.length_cons] at hlength
      omega

theorem Line.split_append_newline (hbody : NoNewline body) (hnewline : newline.kind = .newline) :
    split (body ++ newline :: rest) = ⟨body, some newline⟩ :: split rest := by
  induction body with
  | nil => rw [List.nil_append, split, if_pos hnewline]
  | cons token body ih =>
    obtain ⟨htoken, hbody⟩ := List.forall_mem_cons.mp hbody
    rw [List.cons_append, split, if_neg htoken, ih hbody]

theorem append_newline_inj {other more : List Token} {mark : Token} (hbody : NoNewline body)
    (hnewline : newline.kind = .newline) (hother : NoNewline other) (hmark : mark.kind = .newline)
    (h : body ++ newline :: rest = other ++ mark :: more) :
    body = other ∧ newline = mark ∧ rest = more := by
  have hsplit := congrArg Line.split h
  rw [Line.split_append_newline hbody hnewline, Line.split_append_newline hother hmark] at hsplit
  obtain ⟨hline, -⟩ := List.cons.inj hsplit
  obtain ⟨rfl, hsome⟩ := Line.mk.inj hline
  obtain ⟨rfl, rfl⟩ := List.cons.inj (List.append_cancel_left h)
  exact ⟨rfl, rfl, rfl⟩

theorem script_append_newline_iff (hbody : NoNewline body) (hnewline : newline.kind = .newline) :
    Script (body ++ newline :: rest) sketches ↔ ∃ children others,
      sketches = .node .line children :: others ∧ Line.Derives ⟨body, some newline⟩ children ∧
        Script rest others := by
  constructor
  · intro h
    generalize htokens : body ++ newline :: rest = tokens at h
    cases h with
    | nil => simp at htokens
    | last hder =>
      refine absurd hnewline (hder.noNewline newline ?_)
      simp [← htokens]
    | @blank mark tokens lines hmark others =>
      have hempty : NoNewline [] := fun t ht => absurd ht List.not_mem_nil
      obtain ⟨rfl, rfl, rfl⟩ := append_newline_inj hbody hnewline hempty hmark htokens
      exact ⟨_, lines, rfl, ⟨[], rfl, .inl ⟨rfl, rfl⟩⟩, others⟩
    | line hder hmark others =>
      obtain ⟨rfl, rfl, rfl⟩ := append_newline_inj hbody hnewline hder.noNewline hmark htokens
      exact ⟨_, _, rfl, ⟨_, rfl, .inr hder⟩, others⟩
  · rintro ⟨_, others, rfl, ⟨parts, rfl, ⟨rfl, rfl⟩ | hder⟩, hothers⟩
    · exact .blank hnewline hothers
    · exact .line hder hnewline hothers

theorem script_iff_of_noNewline (hne : body ≠ []) (hbody : NoNewline body) :
    Script body sketches ↔ ∃ children, sketches = [.node .line children] ∧
      Line.Derives ⟨body, none⟩ children := by
  constructor
  · intro h
    cases h with
    | nil => exact absurd rfl hne
    | @last body parts hder =>
      exact ⟨parts, rfl, parts, rfl, .inr hder⟩
    | blank hmark _ => exact absurd hmark (hbody _ List.mem_cons_self)
    | line _ hmark _ => exact absurd hmark (hbody _ (by simp))
  · rintro ⟨_, rfl, parts, rfl, ⟨hempty, -⟩ | hder⟩
    · exact absurd hempty hne
    · exact .last hder

/-! ## Reading -/

theorem readTokens_append_newline (hbody : NoNewline body) (hnewline : newline.kind = .newline) :
    readTokens (body ++ newline :: rest) = (do
      let children ← Line.read ⟨body, some newline⟩
      return .node .line children :: (← readTokens rest)) := by
  rw [readTokens, Line.split_append_newline hbody hnewline]
  rfl

theorem readTokens_append_newline_eq_ok (hbody : NoNewline body)
    (hnewline : newline.kind = .newline) :
    readTokens (body ++ newline :: rest) = .ok sketches ↔ ∃ children others,
      sketches = .node .line children :: others ∧ Line.read ⟨body, some newline⟩ = .ok children ∧
        readTokens rest = .ok others := by
  rw [readTokens_append_newline hbody hnewline]
  cases hread : Line.read ⟨body, some newline⟩ with
  | error => simp [bind, Except.bind]
  | ok children =>
    cases hothers : readTokens rest with
    | error => simp [bind, Except.bind]
    | ok others => simp [bind, Except.bind, pure, Except.pure, eq_comm]

theorem readTokens_of_noNewline (hne : body ≠ []) (hbody : NoNewline body) :
    readTokens body = (do
      let children ← Line.read ⟨body, none⟩
      return [.node .line children]) := by
  rw [readTokens, Line.split_of_no_newline hne hbody]
  rfl

theorem readTokens_eq_ok_of_noNewline (hne : body ≠ []) (hbody : NoNewline body) :
    readTokens body = .ok sketches ↔ ∃ children,
      sketches = [.node .line children] ∧ Line.read ⟨body, none⟩ = .ok children := by
  rw [readTokens_of_noNewline hne hbody]
  cases hread : Line.read ⟨body, none⟩ with
  | error => simp [bind, Except.bind]
  | ok children => simp [bind, Except.bind, pure, Except.pure, eq_comm]

theorem script_of_readTokens (h : readTokens tokens = .ok sketches) : Script tokens sketches := by
  induction tokens using Line.induction generalizing sketches with
  | hnil =>
    cases h
    exact .nil
  | hlast body hne hbody =>
    obtain ⟨children, rfl, hread⟩ := (readTokens_eq_ok_of_noNewline hne hbody).mp h
    exact (script_iff_of_noNewline hne hbody).mpr ⟨children, rfl, Line.derives_of_read hread⟩
  | hline body newline rest hbody hnewline ih =>
    obtain ⟨children, others, rfl, hread, hothers⟩ :=
      (readTokens_append_newline_eq_ok hbody hnewline).mp h
    exact (script_append_newline_iff hbody hnewline).mpr
      ⟨children, others, rfl, Line.derives_of_read hread, ih hothers⟩

theorem readTokens_of_script (h : Script tokens sketches) :
    ∃ lines, readTokens tokens = .ok lines := by
  induction tokens using Line.induction generalizing sketches with
  | hnil => exact ⟨[], rfl⟩
  | hlast body hne hbody =>
    obtain ⟨children, -, hder⟩ := (script_iff_of_noNewline hne hbody).mp h
    obtain ⟨parts, hread⟩ := Line.read_of_derives hder
    rw [readTokens_of_noNewline hne hbody, hread]
    exact ⟨_, rfl⟩
  | hline body newline rest hbody hnewline ih =>
    obtain ⟨children, others, -, hder, hrest⟩ :=
      (script_append_newline_iff hbody hnewline).mp h
    obtain ⟨parts, hread⟩ := Line.read_of_derives hder
    obtain ⟨lines, hlines⟩ := ih hrest
    rw [readTokens_append_newline hbody hnewline, hread, hlines]
    exact ⟨_, rfl⟩

/-! ## Trees of scripts -/

/-- The tree of a script, from its lines. -/
def Tree.ofLines (chars : Array Char) (lines : List Sketch) : Tree :=
  collapse chars .script (lines.map (ofSketch chars))

theorem leaves_of_script (h : Script tokens sketches) :
    tokens = sketches.flatMap Sketch.leaves := by
  induction h with
  | nil => rfl
  | last hder => simpa [leaves] using hder.leaves
  | blank _ _ ih => simp [leaves, leavesOf, ← ih]
  | line hder _ _ ih =>
    have hbody := hder.leaves
    rw [List.append_nil] at hbody
    simp [leaves, leavesOf, ← ih, ← hbody]

theorem Tree.tokens_ofLines (h : Script tokens sketches) (chars : Array Char) :
    (ofLines chars sketches).tokens = tokens := by
  rw [ofLines, tokens_collapse, leaves_of_script h]
  clear h
  induction sketches with
  | nil => rfl
  | cons sketch sketches ih =>
    rw [List.map_cons, tokensOf, tokens_ofSketch, ih, List.flatMap_cons]

theorem parse_eq_ofLines {tree : Tree} (hlex : lex source = ⟨tokens, none⟩) :
    parse source = .ok tree ↔ ∃ lines, readTokens tokens = .ok lines ∧
      tree = Tree.ofLines source.toList.toArray lines := by
  rw [parse_eq_ok, hlex]
  constructor
  · rintro ⟨_, lines, ⟨⟩, hread, rfl⟩
    exact ⟨lines, hread, rfl⟩
  · rintro ⟨lines, hread, rfl⟩
    exact ⟨tokens, lines, rfl, hread, rfl⟩

/--
Tokens are accepted if they are derived by the grammar, and the tree is the collapsed derivation,
with the tokens as its leaves.
-/
theorem readTokens_accepts (tokens : List Token) :
    ((∃ lines, readTokens tokens = .ok lines) ↔ ∃ lines, Script tokens lines) ∧
      (∀ lines, readTokens tokens = .ok lines →
        Script tokens lines ∧ ∀ chars, (Tree.ofLines chars lines).tokens = tokens) ∧
      ∀ source, lex source = ⟨tokens, none⟩ →
        ((∃ tree, parse source = .ok tree) ↔ ∃ lines, Script tokens lines) ∧
          ∀ tree, parse source = .ok tree → ∃ lines, Script tokens lines ∧
            tree = Tree.ofLines source.toList.toArray lines ∧ tree.tokens = tokens := by
  have haccepts : (∃ lines, readTokens tokens = .ok lines) ↔ ∃ lines, Script tokens lines :=
    ⟨fun ⟨lines, h⟩ => ⟨lines, script_of_readTokens h⟩, fun ⟨_, h⟩ => readTokens_of_script h⟩
  have hread : ∀ lines, readTokens tokens = .ok lines →
      Script tokens lines ∧ ∀ chars, (Tree.ofLines chars lines).tokens = tokens := by
    intro lines h
    have hscript := script_of_readTokens h
    exact ⟨hscript, Tree.tokens_ofLines hscript⟩
  refine ⟨haccepts, hread, fun source hlex => ⟨?_, fun tree hparse => ?_⟩⟩
  · rw [← haccepts]
    constructor
    · rintro ⟨tree, hparse⟩
      obtain ⟨lines, h, -⟩ := (parse_eq_ofLines hlex).mp hparse
      exact ⟨lines, h⟩
    · rintro ⟨lines, h⟩
      exact ⟨_, (parse_eq_ofLines hlex).mpr ⟨lines, h, rfl⟩⟩
  · obtain ⟨lines, h, rfl⟩ := (parse_eq_ofLines hlex).mp hparse
    obtain ⟨hscript, htokens⟩ := hread lines h
    exact ⟨lines, hscript, rfl, htokens _⟩

theorem readTokens_accepts_power : ∃ lines, Script (lex "2x ** 3").tokens lines ∧
    Tree.ofLines "2x ** 3".toList.toArray lines = .node .script ⟨"2x ** 3", 0⟩
      [.node .line ⟨"2x ** 3", 0⟩ [.node .impliedProduct ⟨"2x ** 3", 0⟩ [.leaf .int ⟨"2", 0⟩,
        .node .power ⟨"x ** 3", 1⟩ [.leaf .identifier ⟨"x", 1⟩, .leaf .pow ⟨"**", 3⟩,
          .leaf .int ⟨"3", 6⟩]]]] := by
  have hstuck : (lex "2x ** 3").stuck = none := by decide +kernel
  have hlex : lex "2x ** 3" = ⟨(lex "2x ** 3").tokens, none⟩ := congrArg (Lexed.mk _) hstuck
  obtain ⟨-, hparse⟩ := (readTokens_accepts (lex "2x ** 3").tokens).2.2 _ hlex
  obtain ⟨lines, hscript, htree, -⟩ := hparse (.node .script ⟨"2x ** 3", 0⟩
    [.node .line ⟨"2x ** 3", 0⟩ [.node .impliedProduct ⟨"2x ** 3", 0⟩ [.leaf .int ⟨"2", 0⟩,
      .node .power ⟨"x ** 3", 1⟩ [.leaf .identifier ⟨"x", 1⟩, .leaf .pow ⟨"**", 3⟩,
        .leaf .int ⟨"3", 6⟩]]]]) (by decide +kernel)
  exact ⟨lines, hscript, htree.symm⟩

end Calculator.Grammar
