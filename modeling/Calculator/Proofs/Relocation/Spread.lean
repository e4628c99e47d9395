import Calculator.Proofs.Grammar.Positions
import Calculator.Proofs.Grammar.Spacing
import Calculator.Proofs.Relocation.Operator

/-!
# Trees with blanks between two tokens

Blanks between two tokens move what stands behind them and widen what stands around them. All
else in a tree stays as it is.
-/

namespace Calculator

namespace Site

/-- The same piece once blanks come in at a place of the source. -/
def spread (place : Nat) (blanks : String) (site : Site) : Site :=
  if place ≤ site.index then site.shift blanks.length
  else if site.stop ≤ place then site
  else
    let (front, back) := site.text.toList.splitAt (place - site.index)
    { site with text := String.ofList (front ++ blanks.toList ++ back) }

variable {place : Nat} {blanks : String} {site : Site}

theorem spread_of_le (h : place ≤ site.index) :
    site.spread place blanks = site.shift blanks.length := if_pos h

theorem spread_of_stop_le (hfilled : site.index < site.stop) (h : site.stop ≤ place) :
    site.spread place blanks = site := by
  rw [spread, if_neg (by omega), if_pos h]

theorem spread_of_around (hindex : site.index < place) (hstop : place < site.stop) :
    site.spread place blanks =
      ⟨String.ofList (site.text.toList.take (place - site.index) ++ blanks.toList ++
        site.text.toList.drop (place - site.index)), site.index⟩ := by
  rw [spread, if_neg (by omega), if_neg (by omega), List.splitAt_eq]

/-- A piece on one side of the place keeps its text. -/
theorem text_spread (h : site.stop ≤ place ∨ place ≤ site.index) :
    (site.spread place blanks).text = site.text := by
  unfold spread
  split
  · rfl
  · rw [if_pos (by omega)]

theorem index_spread : (site.spread place blanks).index =
    if place ≤ site.index then site.index + blanks.length else site.index := by
  unfold spread
  split
  · rfl
  · split <;> rfl

theorem stop_spread (hfilled : site.index < site.stop) : (site.spread place blanks).stop =
    if site.stop ≤ place then site.stop else site.stop + blanks.length := by
  unfold spread
  split
  · rw [if_neg (by omega)]
    simp only [stop, shift]
    omega
  · split
    · rfl
    · simp only [stop, List.splitAt_eq, String.length_ofList, List.length_append, List.length_take,
        List.length_drop, String.length_toList] at *
      omega

theorem between_eq (source : List Char) (first last : Site) : first.between source.toArray last =
    ⟨String.ofList ((source.drop first.index).take (last.stop - first.index)), first.index⟩ := by
  rw [between, Array.toList_extract, List.extract_eq_take_drop]

theorem stop_between {source : List Char} {first last : Site} (hlt : first.index < last.stop)
    (hlength : last.stop ≤ source.length) : (first.between source.toArray last).stop = last.stop := by
  have hwidth : ((source.drop first.index).take (last.stop - first.index)).length =
      last.stop - first.index := by
    rw [List.length_take, List.length_drop]
    omega
  rw [between_eq, stop, String.length_ofList, hwidth]
  exact Nat.add_sub_cancel' hlt.le

section

variable {before behind inside : List Char} {start stop : Nat}

/-- A piece behind the place goes from the same character to the same one. -/
theorem drop_insert (hstart : before.length ≤ start) :
    (before ++ (inside ++ behind)).drop (start + inside.length) = (before ++ behind).drop start := by
  obtain ⟨more, rfl⟩ := Nat.exists_eq_add_of_le hstart
  rw [Nat.add_assoc, List.drop_length_add_append, List.drop_length_add_append, Nat.add_comm more,
    List.drop_length_add_append]

/-- So does a piece before the place. -/
theorem take_insert (hstart : start ≤ stop) (hstop : stop ≤ before.length) :
    ((before ++ (inside ++ behind)).drop start).take (stop - start) =
      ((before ++ behind).drop start).take (stop - start) := by
  have hle : stop - start ≤ (before.drop start).length := by
    rw [List.length_drop]
    omega
  rw [List.drop_append_of_le_length (by omega), List.drop_append_of_le_length (by omega),
    List.take_append_of_le_length hle, List.take_append_of_le_length hle]

/-- And a piece around it, with what comes in between the two halves. -/
theorem take_drop_insert (hstart : start ≤ before.length) (hstop : before.length ≤ stop) :
    ((before ++ (inside ++ behind)).drop start).take (stop + inside.length - start) =
      (((before ++ behind).drop start).take (stop - start)).take (before.length - start) ++
        inside ++
          (((before ++ behind).drop start).take (stop - start)).drop (before.length - start) := by
  obtain ⟨near, hnear⟩ : ∃ near, near = before.drop start := ⟨_, rfl⟩
  have hlength : near.length = before.length - start := hnear ▸ List.length_drop
  obtain ⟨more, hmore⟩ := Nat.exists_eq_add_of_le hstop
  have hwidth : stop - start = near.length + more := by omega
  have hlonger : stop + inside.length - start = near.length + (inside.length + more) := by omega
  rw [List.drop_append_of_le_length hstart, List.drop_append_of_le_length hstart, ← hnear, hwidth,
    hlonger, ← hlength, List.take_length_add_append, List.take_length_add_append,
    List.take_length_add_append, List.take_left, List.drop_left, List.append_assoc]

end

theorem maps_spread (before behind : List Char) (blanks : String) :
    Maps (before ++ behind) (before ++ (blanks.toList ++ behind))
      (spread before.length blanks) := by
  intro first last hfirst hlast hlt hlength
  obtain ⟨piece, hpiece⟩ : ∃ piece, piece = first.between (before ++ behind).toArray last :=
    ⟨_, rfl⟩
  have hindex : piece.index = first.index := hpiece ▸ rfl
  have hstop : piece.stop = last.stop := hpiece ▸ stop_between hlt hlength
  simp only [relocate]
  rw [← hpiece, between_eq, index_spread, stop_spread hlast]
  by_cases hbehind : before.length ≤ first.index
  · rw [if_pos hbehind, if_neg (by omega), spread_of_le (hindex ▸ hbehind), Nat.add_sub_add_right,
      ← String.length_toList, drop_insert hbehind, hpiece, between_eq]
    rfl
  · rw [if_neg hbehind]
    by_cases hbefore : last.stop ≤ before.length
    · rw [if_pos hbefore, spread_of_stop_le (by omega) (by omega), take_insert hlt.le hbefore,
        hpiece, between_eq]
    · rw [if_neg hbefore, spread_of_around (by omega) (by omega), ← String.length_toList,
        take_drop_insert (by omega) (by omega), hpiece, between_eq, String.toList_ofList]

end Site

namespace Grammar

variable {before blanks behind : String} {a b : List Token} {x y : Token}

/-! ## Tokens -/

namespace Joint

theorem inOrder (h : Joint before behind a x y b) :
    InOrder (before.toList ++ behind.toList) (a ++ x :: y :: b) := by
  rw [← String.toList_append]
  exact inOrder_of_lex h.lexed

/-- No token stands around the place between the two. -/
theorem beside (h : Joint before behind a x y b) :
    (∀ token ∈ a ++ [x], token.stop ≤ before.length) ∧
      ∀ token ∈ y :: b, before.length ≤ token.site.index := by
  have hordered := h.inOrder.ordered
  have hx := h.stop
  have hy := h.start
  rw [List.pairwise_append, List.pairwise_cons, List.pairwise_cons] at hordered
  obtain ⟨-, ⟨-, hbehind, -⟩, hbefore⟩ := hordered
  constructor
  · intro token htoken
    rcases List.mem_append.mp htoken with htoken | htoken
    · have hle := hbefore token htoken x List.mem_cons_self
      have hstop : x.stop = x.site.index + x.site.text.length := rfl
      omega
    · rw [List.mem_singleton.mp htoken, hx]
  · intro token htoken
    rcases List.mem_cons.mp htoken with rfl | htoken
    · exact hy.ge
    · have hle := hbehind token htoken
      have hstop : y.stop = y.site.index + y.site.text.length := rfl
      omega

theorem map_relocate (h : Joint before behind a x y b) (blanks : String) :
    (a ++ x :: y :: b).map (Token.relocate (Site.spread before.length blanks)) =
      a ++ x :: (y :: b).map (Token.shift blanks.length) := by
  obtain ⟨hbefore, hbehind⟩ := h.beside
  have hsplit : a ++ x :: y :: b = (a ++ [x]) ++ y :: b := by simp
  have hfilled := h.inOrder.filled
  rw [hsplit, List.forall_mem_append] at hfilled
  have hstart : (a ++ [x]).map (Token.relocate (Site.spread before.length blanks)) = a ++ [x] := by
    refine (List.map_congr_left fun token htoken => ?_).trans (List.map_id _)
    rw [Token.relocate, Site.relocate,
      Site.spread_of_stop_le (hfilled.1 token htoken) (hbefore token htoken), id]
  have hend : (y :: b).map (Token.relocate (Site.spread before.length blanks)) =
      (y :: b).map (Token.shift blanks.length) := by
    refine List.map_congr_left fun token htoken => ?_
    rw [Token.relocate, Site.relocate, Site.spread_of_le (hbehind token htoken), Token.shift]
  rw [hsplit, List.map_append, hstart, hend, List.append_assoc, List.singleton_append]

/-- No token gets another text. -/
theorem text_relocate (h : Joint before behind a x y b) (blanks : String) :
    ∀ token ∈ a ++ x :: y :: b,
      (token.site.relocate (Site.spread before.length blanks)).text = token.site.text := by
  obtain ⟨hbefore, hbehind⟩ := h.beside
  intro token htoken
  have hside : token ∈ a ++ [x] ∨ token ∈ y :: b := by simpa [or_assoc] using htoken
  exact Site.text_spread (hside.imp (hbefore token) (hbehind token))

theorem length_lt (h : Joint before behind a x y b) :
    before.length < (before ++ behind).length := by
  have hy : y ∈ a ++ x :: y :: b := by simp
  have hfilled := h.inOrder.filled y hy
  have hstop := (h.inOrder.within y hy).stop_le
  have hstart := h.start
  rw [← String.toList_append, String.length_toList] at hstop
  omega

end Joint

/-! ## Places of rejections -/

section

variable (h : Joint before behind a x y b) (blanks : String)

include h

/-- The rest of the source from a place on. -/
theorem siteFrom_insert {site : Site} (hindex : site.index < (before ++ behind).length) :
    siteFrom (before ++ blanks ++ behind) (site.spread before.length blanks).index =
      (siteFrom (before ++ behind) site.index).spread before.length blanks := by
  obtain ⟨rest, hrest⟩ : ∃ rest, rest = siteFrom (before ++ behind) site.index := ⟨_, rfl⟩
  have hstart : rest.index = site.index := hrest ▸ rfl
  have htext : rest.text.toList = (before.toList ++ behind.toList).drop site.index := by
    rw [hrest, siteFrom, String.toList_ofList, String.toList_append]
  have hstop : rest.stop = (before ++ behind).length := by
    rw [Site.stop, hrest, siteFrom, String.length_ofList, List.length_drop, String.length_toList]
    exact Nat.add_sub_cancel' hindex.le
  have hbefore := h.length_lt
  rw [← hrest, Site.index_spread, siteFrom, String.toList_append, String.toList_append,
    List.append_assoc]
  by_cases hbehind : before.length ≤ site.index
  · rw [if_pos hbehind, Site.spread_of_le (hstart ▸ hbehind), ← String.length_toList,
      Site.drop_insert hbehind, ← htext, String.ofList_toList, ← hstart]
    rfl
  · have hlength : site.index ≤ before.toList.length := by
      rw [String.length_toList]
      omega
    have hwidth : before.length - site.index = (before.toList.drop site.index).length := by
      rw [List.length_drop, String.length_toList]
    rw [if_neg hbehind, Site.spread_of_around (by omega) (by omega), htext, hstart, hwidth,
      List.drop_append_of_le_length hlength, List.drop_append_of_le_length hlength, List.take_left,
      List.drop_left, List.append_assoc]

theorem siteFrom_end : siteFrom (before ++ blanks ++ behind) (before ++ blanks ++ behind).length =
    (siteFrom (before ++ behind) (before ++ behind).length).spread before.length blanks := by
  have hend (source : String) : siteFrom source source.length = ⟨"", source.length⟩ := by
    rw [siteFrom, ← String.length_toList, List.drop_length, String.ofList_nil]
  rw [hend, hend, Site.spread_of_le h.length_lt.le, Site.shift]
  simp only [String.length_append, Site.mk.injEq, true_and]
  omega

theorem rejectToken_insert {token : Token} (htoken : token ∈ a ++ x :: y :: b) :
    rejectToken (before ++ blanks ++ behind)
        (token.relocate (Site.spread before.length blanks)) =
      (rejectToken (before ++ behind) token).relocate (Site.spread before.length blanks) := by
  have hindex : token.site.index < (before ++ behind).length := by
    have hfilled := h.inOrder.filled token htoken
    have hstop := (h.inOrder.within token htoken).stop_le
    rw [← String.toList_append, String.length_toList] at hstop
    omega
  have htext := h.text_relocate blanks token htoken
  rw [rejectToken, Token.relocate, htext]
  exact congrArg (Failure.located · _) (siteFrom_insert h blanks hindex)

theorem rejectEnd_insert : rejectEnd (before ++ blanks ++ behind) =
    (rejectEnd (before ++ behind)).relocate (Site.spread before.length blanks) :=
  congrArg (Failure.located · _) (siteFrom_end h blanks)

end

/-! ## Trees -/

/-- The tree of lines in another source. -/
theorem Tree.ofLines_relocate {source other : List Char} {move : Site → Site}
    {tokens : List Token} {lines : List Sketch} (hmaps : Site.Maps source other move)
    (hread : readTokens tokens = .ok lines) (horder : InOrder source tokens) (hne : tokens ≠ []) :
    Tree.ofLines other.toArray (Sketch.mapAll (Token.relocate move) lines) =
      (Tree.ofLines source.toArray lines).relocate move := by
  have htokens := Tree.tokens_ofLines (script_of_readTokens hread) source.toArray
  rw [Tree.ofLines_eq_ofSketch, tokens_ofSketch] at htokens
  have hlines : lines ≠ [] := by
    rintro rfl
    exact hne htokens.symm
  have hparts : (Sketch.node .script lines.reverse).All HasParts :=
    ⟨by simpa [HasParts] using hlines, Sketch.allOf_iff.mpr fun line hline =>
      hasParts_of_readTokens hread line (List.mem_reverse.mp hline)⟩
  rw [Tree.ofLines_eq_ofSketch, Tree.ofLines_eq_ofSketch, Sketch.mapAll_eq_map, ← List.map_reverse,
    ← Sketch.mapAll_eq_map]
  exact ofSketch_relocate hmaps hparts (htokens ▸ horder)

/-- With blanks between two tokens, a source is read or rejected in the same way. -/
theorem Joint.parse_insert (h : Joint before behind a x y b) (hoctal : x.isBareOctal = false)
    (hopen : x.kind ≠ .openLiteral) (hblanks : ∀ c ∈ blanks.toList, c = ' ' ∨ c = '\t') :
    parse (before ++ blanks ++ behind) =
      (Tree.relocate (Site.spread before.length blanks) <$> parse (before ++ behind)).relocate
        (Site.spread before.length blanks) := by
  have hlex := h.lex_insert hoctal hopen hblanks
  rw [← h.map_relocate blanks] at hlex
  have hkind : ∀ token, (Token.relocate (Site.spread before.length blanks) token).kind =
      token.kind := fun _ => rfl
  have hread := readTokens_map hkind (a ++ x :: y :: b)
  unfold parse
  simp only [h.lexed, hlex, hread]
  cases hresult : readTokens (a ++ x :: y :: b) with
  | error rejection =>
    cases rejection with
    | token token =>
      obtain ⟨start, others, hsplit, -, -⟩ := readTokens_eq_token hresult
      exact congrArg Except.error (rejectToken_insert h blanks (by simp [hsplit]))
    | unfinished => exact congrArg Except.error (rejectEnd_insert h blanks)
  | ok lines =>
    have htree := Tree.ofLines_relocate (Site.maps_spread before.toList behind.toList blanks)
      hresult h.inOrder (by simp)
    rw [String.length_toList] at htree
    simp only [String.toList_append, List.append_assoc]
    exact congrArg Except.ok htree

end Grammar

end Calculator
