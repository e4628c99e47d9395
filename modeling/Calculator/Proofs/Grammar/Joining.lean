import Calculator.Proofs.Grammar.Breaking
import Calculator.Proofs.Grammar.Kinds
import Calculator.Proofs.Grammar.Rejection

/-!
# Two sources as one

Behind a source that ends with a newline, another source has the tokens, the lines and the trees
that it has alone, further on.
-/

namespace Calculator.Grammar

open Sketch

variable {index : Nat} {cs left after : List Char} {tokens body : List Token} {newline : Token}
  {first second : String} {sketches children : List Sketch}

/-! ## Tokens -/

namespace Lexes

/-- A text that ends with a newline lexes as before when it goes on. -/
theorem extend (h : Lexes index cs tokens []) (hlast : cs = [] ∨ cs.getLast? = some '\n')
    (after : List Char) : Lexes index (cs ++ after) tokens after := by
  generalize hleft : ([] : List Char) = left at h
  induction h with
  | done =>
    subst hleft
    exact .done
  | @next index cs kind read rest tokens left hread hrest ih =>
    have hcs := sound_readNext hread
    have hend := hlast.resolve_left (ne_nil_of_readNext hread)
    refine .next (readNext_append hread hend after) (ih ?_ hleft)
    by_cases hempty : rest = []
    · exact .inl hempty
    · right
      rw [← hend, ← hcs, List.getLast?_append_of_ne_nil _ hempty]

theorem trans {a b : List Token} (h : Lexes index (cs ++ after) a after)
    (hafter : Lexes (index + cs.length) after b left) :
    Lexes index (cs ++ after) (a ++ b) left := by
  generalize htext : cs ++ after = text at h
  induction h generalizing cs with
  | done =>
    obtain rfl := List.append_left_eq_self.mp htext
    exact hafter
  | @next index text kind read rest tokens after hread hrest ih =>
    obtain ⟨others, rfl, rfl⟩ := hrest.first_read (htext ▸ hread)
    rw [List.length_append, ← Nat.add_assoc] at hafter
    rw [List.append_assoc]
    exact .next hread (ih hafter rfl)

/-- A run to the end goes on where another run has stopped. -/
theorem resume {a b : List Token} (h : Lexes index (cs ++ after) a after)
    (hall : Lexes index (cs ++ after) b []) :
    ∃ more, b = a ++ more ∧ Lexes (index + cs.length) after more [] := by
  generalize htext : cs ++ after = text at h hall
  induction h generalizing cs b with
  | done =>
    obtain rfl := List.append_left_eq_self.mp htext
    exact ⟨b, rfl, hall⟩
  | @next index text kind read rest tokens after hread hrest ih =>
    obtain ⟨others, rfl, rfl⟩ := hrest.first_read (htext ▸ hread)
    cases hall with
    | done => cases length_of_readNext hread
    | next hread' hrest' =>
      rw [hread] at hread'
      cases hread'
      obtain ⟨more, rfl, hmore⟩ := ih rfl hrest'
      refine ⟨more, (List.append_assoc _ _ _).symm, ?_⟩
      rwa [List.length_append, ← Nat.add_assoc]

theorem shift (offset : Nat) (h : Lexes index cs tokens left) :
    Lexes (index + offset) cs (tokens.map (Token.shift offset)) left := by
  induction h with
  | done => exact .done
  | @next index cs kind read rest tokens left hread hrest ih =>
    have htoken : (tokenOf kind read index).map (Token.shift offset) =
        tokenOf kind read (index + offset) := by
      cases kind <;> rfl
    rw [Nat.add_right_comm] at ih
    rw [List.map_append, htoken]
    exact .next hread ih

theorem newline_ends (h : Lexes index cs tokens left) : ∀ token ∈ tokens, token.kind = .newline →
    token.site.text.toList.getLast? = some '\n' := by
  intro token htoken hkind
  obtain ⟨_, _, _, -, -, hread, hsite⟩ := h.exists_read token htoken
  rw [hkind] at hread
  obtain ⟨reader, hreader, hread⟩ := readNext_reads hread
  obtain rfl : reader = readNewline := List.mem_singleton.mp hreader
  obtain ⟨a, middle, b, -, hend, rfl⟩ := Reader.andThen_eq_some.mp hread
  obtain ⟨c, hc, rfl, -⟩ := Reader.oneOf_eq_some.mp hend
  rw [hsite, List.mem_singleton.mp hc, String.toList_ofList, List.getLast?_concat]

end Lexes

theorem lex_append_eq_iff {started : List Token} (hlex : lex first = ⟨started, none⟩)
    (hlast : first.toList.getLast? = some '\n') : lex (first ++ second) = ⟨tokens, none⟩ ↔
      ∃ more, lex second = ⟨more, none⟩ ∧
        tokens = started ++ more.map (Token.shift first.length) := by
  have hstart := (lex_eq_iff.mp hlex).extend (.inr hlast) second.toList
  rw [lex_eq_iff, String.toList_append]
  constructor
  · intro h
    obtain ⟨shifted, rfl, hshifted⟩ := hstart.resume h
    obtain ⟨more, rfl, hmore⟩ := hshifted.unshift
    exact ⟨more, lex_eq_iff.mpr hmore, by rw [String.length_toList]⟩
  · rintro ⟨more, hmore, rfl⟩
    have hmore := (lex_eq_iff.mp hmore).shift first.length
    rw [← String.length_toList] at hmore ⊢
    exact hstart.trans hmore

/-- The last token is a newline, and nothing comes behind it. -/
def endsLine (source : String) : Bool :=
  (lex source).tokens.getLast?.any fun token =>
    token.kind = .newline && token.stop = source.length

theorem lex_of_endsLine {source : String} (h : endsLine source) : ∃ body newline,
    lex source = ⟨body ++ [newline], none⟩ ∧ newline.kind = .newline ∧
      source.toList.getLast? = some '\n' := by
  obtain ⟨newline, hlast, hends⟩ := (Option.any_eq_true _ _).mp h
  obtain ⟨body, hbody⟩ := List.getLast?_eq_some_iff.mp hlast
  simp only [Bool.and_eq_true, decide_eq_true_eq] at hends
  obtain ⟨hkind, hstop⟩ := hends
  have hmem : newline ∈ body ++ [newline] := by simp
  -- Behind the newline there is nothing, so the lexer is not stuck there.
  have hstuck : (lex source).stuck = none := by
    by_contra hstuck
    obtain ⟨index, hindex⟩ := Option.ne_none_iff_exists'.mp hstuck
    have hlex : lex source = ⟨body ++ [newline], some index⟩ := by rw [← hbody, ← hindex]
    obtain ⟨c, left, -, hrun, -⟩ := lex_stuck hlex
    obtain ⟨before, after, hsource, hplace⟩ := hrun.within newline hmem
    rw [← List.append_nil (body ++ [newline])] at hrun
    obtain ⟨read, rest, hread, -, hnothing, hend⟩ := hrun.split
    have hlength := congrArg List.length hread
    rw [List.length_append, String.length_toList] at hlength
    have hstop' := hend newline (by simp)
    obtain rfl : rest = [] := List.length_eq_zero_iff.mp (by omega)
    exact absurd hnothing.suffix.length_le (by simp)
  have hlex : lex source = ⟨body ++ [newline], none⟩ := by rw [← hbody, ← hstuck]
  refine ⟨body, newline, hlex, hkind, ?_⟩
  have hrun := lex_eq_iff.mp hlex
  have htext := hrun.newline_ends newline hmem hkind
  obtain ⟨before, after, hsource, hindex⟩ := hrun.within newline hmem
  obtain rfl : after = [] := by
    have hlength := congrArg List.length hsource
    simp only [List.length_append, String.length_toList, Token.stop] at hlength hstop
    exact List.length_eq_zero_iff.mp (by omega)
  rw [hsource, List.append_nil, List.getLast?_append, htext]
  rfl

/-! ## Lines -/

/-- The lines of tokens that end with a newline, and then the lines of the tokens behind. -/
theorem readTokens_append {a b : List Token} (ha : ∀ last ∈ a.getLast?, last.kind = .newline) :
    readTokens (a ++ b) = .ok sketches ↔ ∃ x y, sketches = x ++ y ∧
      readTokens a = .ok x ∧ readTokens b = .ok y := by
  induction a using Line.induction generalizing sketches with
  | hnil => simp [readTokens, Line.split, readLines]
  | hlast body hne hbody =>
    have hlast := List.getLast?_eq_some_getLast hne
    exact absurd (ha _ hlast) (hbody _ (List.mem_of_getLast? hlast))
  | hline body newline rest hbody hnewline ih =>
    have hrest : ∀ last ∈ rest.getLast?, last.kind = .newline := by
      intro last hlast
      refine ha last ?_
      rw [List.getLast?_append, List.getLast?_cons, hlast]
      rfl
    rw [List.append_assoc, List.cons_append, readTokens_append_newline_eq_ok hbody hnewline]
    simp only [readTokens_append_newline_eq_ok hbody hnewline, ih hrest]
    constructor
    · rintro ⟨children, _, rfl, hread, x, y, rfl, hx, hy⟩
      exact ⟨_, y, rfl, ⟨children, x, rfl, hread, hx⟩, hy⟩
    · rintro ⟨_, y, rfl, ⟨children, x, rfl, hread, hx⟩, hy⟩
      exact ⟨children, x ++ y, rfl, hread, x, y, rfl, hx, hy⟩

theorem readTokens_shift (offset : Nat) :
    readTokens (tokens.map (Token.shift offset)) = .ok sketches ↔
      ∃ others, readTokens tokens = .ok others ∧ sketches = Sketch.shiftAll offset others := by
  have hkind : ∀ token, (Token.shift offset token).kind = token.kind := fun _ => rfl
  rw [readTokens_map hkind]
  cases readTokens tokens with
  | error rejection => simp [Except.map, Except.mapError]
  | ok lines => simp [Except.map, Except.mapError, Sketch.shiftAll_eq_mapAll, eq_comm]

/-! ## Trees -/

mutual

theorem Sketch.shift_zero : ∀ sketch : Sketch, sketch.shift 0 = sketch
  | .leaf _ => rfl
  | .node rule parts => congrArg (Sketch.node rule) (shiftAll_zero parts)

theorem Sketch.shiftAll_zero : ∀ sketches : List Sketch, Sketch.shiftAll 0 sketches = sketches
  | [] => rfl
  | sketch :: sketches => congrArg₂ List.cons (shift_zero sketch) (shiftAll_zero sketches)

end

mutual

theorem Tree.shift_zero : ∀ tree : Tree, tree.shift 0 = tree
  | .leaf _ _ => rfl
  | .node rule site children => congrArg (Tree.node rule site) (shiftAll_zero children)

theorem Tree.shiftAll_zero : ∀ trees : List Tree, Tree.shiftAll 0 trees = trees
  | [] => rfl
  | tree :: trees => congrArg₂ List.cons (shift_zero tree) (shiftAll_zero trees)

end

/-- A line that has tokens or a newline is a node with parts, and so are all nodes in it. -/
theorem Line.hasParts {line : Line} (hread : line.read = .ok children)
    (hline : line.body ≠ [] ∨ line.newline.isSome) : (Sketch.node .line children).All HasParts := by
  refine ⟨?_, AllOf.mono (fun _ _ => Known.hasParts) (known_of_read hread)⟩
  obtain ⟨parts, rfl, hparts⟩ := derives_of_read hread
  rcases hline with hbody | hnewline
  · have hleaves := (hparts.resolve_left fun h => hbody h.1).leaves
    refine List.append_ne_nil_of_right_ne_nil _ ?_
    rintro rfl
    exact hbody hleaves
  · obtain ⟨newline, hnewline⟩ := Option.isSome_iff_exists.mp hnewline
    rw [mark, hnewline]
    exact List.cons_ne_nil _ _

theorem hasParts_of_readTokens (h : readTokens tokens = .ok sketches) :
    ∀ sketch ∈ sketches, sketch.All HasParts := by
  induction tokens using Line.induction generalizing sketches with
  | hnil =>
    cases h
    exact fun sketch hsketch => absurd hsketch List.not_mem_nil
  | hlast body hne hbody =>
    obtain ⟨children, rfl, hread⟩ := (readTokens_eq_ok_of_noNewline hne hbody).mp h
    exact List.forall_mem_singleton.mpr (Line.hasParts hread (.inl hne))
  | hline body newline rest hbody hnewline ih =>
    obtain ⟨children, others, rfl, hread, hothers⟩ :=
      (readTokens_append_newline_eq_ok hbody hnewline).mp h
    exact List.forall_mem_cons.mpr ⟨Line.hasParts hread (.inr rfl), ih hothers⟩

/-- The trees of a source that stands in a longer one. -/
theorem map_ofSketch_shift {inside : List Char} (before after : List Char)
    (h : readTokens tokens = .ok sketches) (horder : InOrder inside tokens) :
    (Sketch.shiftAll before.length sketches).map
        (Tree.ofSketch (before ++ (inside ++ after)).toArray) =
      Tree.shiftAll before.length (sketches.map (Tree.ofSketch inside.toArray)) := by
  rw [leaves_of_script (script_of_readTokens h)] at horder
  rw [Sketch.shiftAll_eq_map, Tree.shiftAll_eq_map, List.map_map, List.map_map]
  refine List.map_congr_left fun sketch hsketch => ?_
  obtain ⟨a, b, rfl⟩ := List.append_of_mem hsketch
  rw [List.flatMap_append, List.flatMap_cons] at horder
  exact ofSketch_shift (hasParts_of_readTokens h sketch hsketch) horder.right.left

theorem Tree.children_ofLines (chars : Array Char) (lines : List Sketch) :
    (Tree.ofLines chars lines).children = lines.map (Tree.ofSketch chars) := by
  unfold ofLines collapse
  split
  case h_1 child hone =>
    rw [hone]
    rfl
  case h_2 => rfl

/-- Behind a source that ends with a newline, a source can be read if it can be read alone. -/
theorem exists_parse_append_iff (hends : endsLine first) :
    (∃ tree, parse (first ++ second) = .ok tree) ↔
      (∃ tree, parse first = .ok tree) ∧ ∃ tree, parse second = .ok tree := by
  obtain ⟨body, newline, hlex, hkind, hlast⟩ := lex_of_endsLine hends
  have hnewline : ∀ last ∈ (body ++ [newline]).getLast?, last.kind = .newline := by
    simpa using hkind
  simp only [parse_eq_ok, lex_append_eq_iff hlex hlast]
  constructor
  · rintro ⟨_, _, lines, ⟨more, hmore, rfl⟩, hlines, rfl⟩
    obtain ⟨x, _, rfl, hx, hshifted⟩ := (readTokens_append hnewline).mp hlines
    obtain ⟨y, hy, rfl⟩ := (readTokens_shift first.length).mp hshifted
    exact ⟨⟨_, _, x, hlex, hx, rfl⟩, _, more, y, hmore, hy, rfl⟩
  · rintro ⟨⟨_, tokens, x, hfirst, hx, -⟩, _, more, y, hmore, hy, -⟩
    rw [hlex] at hfirst
    cases hfirst
    exact ⟨_, _, _, ⟨more, hmore, rfl⟩, (readTokens_append hnewline).mpr
      ⟨x, _, rfl, hx, (readTokens_shift first.length).mpr ⟨y, hy, rfl⟩⟩, rfl⟩

/-- Its lines come behind the lines of the first one. -/
theorem children_of_parse_append {tree before behind : Tree} (hends : endsLine first)
    (h : parse (first ++ second) = .ok tree) (hbefore : parse first = .ok before)
    (hbehind : parse second = .ok behind) :
    tree.children = before.children ++ Tree.shiftAll first.length behind.children := by
  obtain ⟨body, newline, hlex, hkind, hlast⟩ := lex_of_endsLine hends
  have hnewline : ∀ last ∈ (body ++ [newline]).getLast?, last.kind = .newline := by
    simpa using hkind
  obtain ⟨_, lines, hboth, hlines, rfl⟩ := parse_eq_ok.mp h
  obtain ⟨more, hmore, rfl⟩ := (lex_append_eq_iff hlex hlast).mp hboth
  obtain ⟨x, _, rfl, hx, hshifted⟩ := (readTokens_append hnewline).mp hlines
  obtain ⟨y, hy, rfl⟩ := (readTokens_shift first.length).mp hshifted
  obtain ⟨_, hread, rfl⟩ := (parse_eq_ofLines hlex).mp hbefore
  obtain ⟨_, hread', rfl⟩ := (parse_eq_ofLines hmore).mp hbehind
  cases hx.symm.trans hread
  cases hy.symm.trans hread'
  have hstart := map_ofSketch_shift [] second.toList hx (inOrder_of_lex hlex)
  have hend := map_ofSketch_shift first.toList [] hy (inOrder_of_lex hmore)
  rw [List.length_nil, Sketch.shiftAll_zero, Tree.shiftAll_zero, List.nil_append] at hstart
  rw [List.append_nil, String.length_toList] at hend
  change (Tree.ofLines _ _).children = _
  simp only [Tree.children_ofLines, String.toList_append, List.map_append, hstart, hend]

end Calculator.Grammar
