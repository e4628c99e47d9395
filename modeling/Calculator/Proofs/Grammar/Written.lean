import Calculator.Proofs.Grammar.Building
import Calculator.Proofs.Grammar.Joining
import Calculator.Proofs.Grammar.Whole
import Calculator.Value.Rendering

/-!
# The trees of written values

What is written for truths, integers and arrays of them is a text of tokens. A sign is a token of
its own, and the comma between two items is followed by a blank, so that no digits after it are
taken for a group of the number before it. The tree of the tokens follows the value.
-/

namespace Calculator

open Grammar Grammar.Reader Number Text

/-! ## What follows a value -/

/-- The end of the text, or the end of an item. -/
inductive Stops : List Char → Prop
  | nil : Stops []
  | close (cs : List Char) : Stops (']' :: cs)
  | comma (cs : List Char) : Stops (',' :: ' ' :: cs)

variable {chars : Array Char} {after : List Char} {value : Value}

theorem Stops.ends (h : Stops after) : Ends after := by
  cases h with
  | nil => exact Follows.nil.ends
  | close cs =>
    have hmark : (Terminal.rsqb, [']']) ∈ operators := by decide
    exact (Follows.mark hmark (by decide) cs).ends
  | comma cs =>
    have hblank : isInlineBlank ' ' = true := rfl
    exact (Follows.comma hblank cs).ends

/-! ## Tokens -/

theorem readNext_digits (n : Nat) (h : Stops after) :
    readNext (Nat.toDigits 10 n ++ after) = some (some .int, Nat.toDigits 10 n, after) :=
  readNext_of_digits .plain h.ends

theorem readNext_bool (b : Bool) (h : Stops after) :
    readNext ((Value.boolText b).toList ++ after) =
      some (some .boolean, (Value.boolText b).toList, after) := by
  have hhead : ∀ c ∈ after.head?, isWord c = false := fun c hc => (h.ends.head c hc).2.1
  cases b with
  | false => exact readNext_of_reader 5 rfl (by decide) (notBefore_eq_some.mpr ⟨rfl, hhead⟩)
  | true => exact readNext_of_reader 5 rfl (by decide) (notBefore_eq_some.mpr ⟨rfl, hhead⟩)

theorem readNext_minus (cs : List Char) :
    readNext ('-' :: cs) = some (some .minus, ['-'], cs) :=
  readNext_of_reader 29 rfl (by decide) rfl

theorem readNext_separator (cs : List Char) :
    readNext (',' :: cs) = some (some .comma, [','], cs) :=
  readNext_of_reader 40 rfl (by decide) rfl

theorem readNext_open (cs : List Char) :
    readNext ('[' :: cs) = some (some .lsqb, ['['], cs) :=
  readNext_of_reader 43 rfl (by decide) rfl

theorem readNext_close (cs : List Char) :
    readNext (']' :: cs) = some (some .rsqb, [']'], cs) :=
  readNext_of_reader 44 rfl (by decide) rfl

theorem readNext_blank {c : Char} (hc : isInlineBlank c = false) (cs : List Char) :
    readNext (' ' :: c :: cs) = some (none, [' '], c :: cs) :=
  readNext_of_blanks (many_eq_some.mpr ⟨List.cons_ne_nil _ _, rfl,
    List.forall_mem_singleton.mpr rfl, by simpa using hc⟩)

/-! ## Values -/

namespace Value

mutual

/-- Made of truths, integers in range and arrays. -/
def isReadable : Value → Bool
  | bool _ => true
  | int n => inRange n
  | array items => areReadable items
  | _ => false

def areReadable : List Value → Bool
  | [] => true
  | item :: items => item.isReadable && areReadable items

end

/-- What is written behind the first item. -/
def moreText : List Value → String
  | [] => ""
  | item :: items => ", " ++ item.text ++ moreText items

theorem itemTexts_cons (item : Value) (items : List Value) :
    itemTexts (item :: items) = item.text ++ moreText items := by
  induction items generalizing item with
  | nil => simp [itemTexts, moreText]
  | cons next items ih => simp [itemTexts, moreText, ih, String.append_assoc]

mutual

/-- The tokens of what is written, from an index on. -/
def tokens (index : Nat) : Value → List Token
  | bool b => [⟨.boolean, ⟨boolText b, index⟩⟩]
  | int (.ofNat n) => [⟨.int, ⟨toString n, index⟩⟩]
  | int (.negSucc n) => [⟨.minus, ⟨"-", index⟩⟩, ⟨.int, ⟨toString (n + 1), index + 1⟩⟩]
  | array [] => [⟨.lsqb, ⟨"[", index⟩⟩, ⟨.rsqb, ⟨"]", index + 1⟩⟩]
  | array (item :: items) =>
    ⟨.lsqb, ⟨"[", index⟩⟩ :: (item.tokens (index + 1) ++
      (moreTokens (index + 1 + item.text.length) items ++
        [⟨.rsqb, ⟨"]", index + 1 + item.text.length + (moreText items).length⟩⟩]))
  | _ => []

def moreTokens (index : Nat) : List Value → List Token
  | [] => []
  | item :: items =>
    ⟨.comma, ⟨",", index⟩⟩ :: (item.tokens (index + 2) ++
      moreTokens (index + 2 + item.text.length) items)

end

theorem text_ofNat (n : Nat) : (int (.ofNat n)).text = toString n := by
  rw [text]
  rfl

theorem text_negSucc (n : Nat) : (int (.negSucc n)).text = "-" ++ toString (n + 1) := by
  rw [text]
  rfl

theorem toList_ofNat (n : Nat) : (int (.ofNat n)).text.toList = Nat.toDigits 10 n := by
  rw [text_ofNat, Nat.toString_eq_repr, Nat.toList_repr]

theorem toList_negSucc (n : Nat) :
    (int (.negSucc n)).text.toList = '-' :: Nat.toDigits 10 (n + 1) := by
  rw [text_negSucc, String.toList_append, Nat.toString_eq_repr, Nat.toList_repr]
  rfl

theorem toList_array (items : List Value) :
    (array items).text.toList = '[' :: ((itemTexts items).toList ++ [']']) := by
  simp [text]

/-- No value starts with a blank, so the blank before an item is no longer than that. -/
theorem text_head (value : Value) (h : value.isReadable = true) :
    ∃ c cs, value.text.toList = c :: cs ∧ isInlineBlank c = false := by
  cases value with
  | bool b => cases b <;> exact ⟨_, _, rfl, rfl⟩
  | int n =>
    cases n with
    | ofNat n =>
      obtain ⟨c, cs, hdigits⟩ := List.exists_cons_of_ne_nil (Nat.toDigits_ne_nil (n := n) (b := 10))
      obtain ⟨d, hd, rfl⟩ := mem_toDigits (by decide) n c (hdigits ▸ List.mem_cons_self)
      have hdigit : ∀ d < 10, isInlineBlank d.digitChar = false := by decide
      exact ⟨_, cs, (toList_ofNat n).trans hdigits, hdigit d hd⟩
    | negSucc n => exact ⟨'-', _, toList_negSucc n, rfl⟩
  | array items => exact ⟨'[', _, toList_array items, rfl⟩
  | _ => cases h

theorem stops_moreText (items : List Value) (h : Stops after) :
    Stops ((moreText items).toList ++ after) := by
  cases items with
  | nil => exact h
  | cons item items =>
    rw [moreText, String.append_assoc, String.toList_append]
    exact .comma _

theorem lexes_int (n : Int) (index : Nat) (h : Stops after) :
    Lexes index ((int n).text.toList ++ after) ((int n).tokens index) after := by
  cases n with
  | ofNat n =>
    rw [toList_ofNat, tokens, Nat.toString_eq_repr, Nat.repr_eq_ofList_toDigits]
    exact .next (readNext_digits n h) .done
  | negSucc n =>
    rw [toList_negSucc, List.cons_append, tokens, Nat.toString_eq_repr, Nat.repr_eq_ofList_toDigits]
    exact .next (readNext_minus _) (.next (readNext_digits (n + 1) h) .done)

-- By induction on the value. What comes after it is open, as an item is read inside of an array.
mutual

theorem lexes_text : (value : Value) → value.isReadable = true → ∀ (index : Nat)
    {after : List Char}, Stops after →
    Lexes index (value.text.toList ++ after) (value.tokens index) after
  | bool b, _, index, after, hafter => by
    have hlexes : Lexes index _ (tokenOf (some .boolean) _ index ++ []) after :=
      .next (readNext_bool b hafter) .done
    simpa [tokenOf, tokens, text] using hlexes
  | int n, _, index, after, hafter => lexes_int n index hafter
  | array [], _, index, after, hafter => by
    rw [tokens]
    exact .next (readNext_open _) (.next (readNext_close after) .done)
  | array (item :: items), h, index, after, hafter => by
    obtain ⟨hitem, hitems⟩ := Bool.and_eq_true_iff.mp h
    have htext : (array (item :: items)).text.toList ++ after =
        '[' :: (item.text.toList ++ ((moreText items).toList ++ ']' :: after)) := by
      simp [toList_array, itemTexts_cons]
    have hmore := lexes_moreText items hitems (index + 1 + item.text.length) (.close after)
    have hfirst := lexes_text item hitem (index + 1) (stops_moreText items (.close after))
    rw [htext, tokens]
    refine .next (readNext_open _) (hfirst.trans ?_)
    rw [String.length_toList]
    refine hmore.trans ?_
    rw [String.length_toList]
    exact .next (readNext_close after) .done

theorem lexes_moreText : (items : List Value) → areReadable items = true → ∀ (index : Nat)
    {after : List Char}, Stops after →
    Lexes index ((moreText items).toList ++ after) (moreTokens index items) after
  | [], _, index, after, _ => .done
  | item :: items, h, index, after, hafter => by
    obtain ⟨hitem, hitems⟩ := Bool.and_eq_true_iff.mp h
    have htext : (moreText (item :: items)).toList ++ after =
        ',' :: ' ' :: (item.text.toList ++ ((moreText items).toList ++ after)) := by
      simp [moreText]
    have hmore := lexes_moreText items hitems (index + 2 + item.text.length) hafter
    have hfirst := lexes_text item hitem (index + 2) (stops_moreText items hafter)
    rw [htext, moreTokens]
    obtain ⟨c, cs, hhead, hc⟩ := text_head item hitem
    have hblank := readNext_blank hc (cs ++ ((moreText items).toList ++ after))
    rw [← List.cons_append, ← hhead] at hblank
    refine .next (readNext_separator _) (.next hblank (hfirst.trans ?_))
    rw [String.length_toList]
    exact hmore

end

theorem lex_text {value : Value} (h : value.isReadable = true) :
    lex value.text = ⟨value.tokens 0, Option.none⟩ := by
  have hlexes := lexes_text value h 0 .nil
  rw [List.append_nil] at hlexes
  exact lex_eq_iff.mpr hlexes

/-! ## Brackets -/

mutual

theorem balanced_tokens : (value : Value) → (index : Nat) → Balanced (value.tokens index)
  | int n, index => by
    cases n <;> intro b <;> cases b <;> rfl
  | array [], _ => by
    intro b
    cases b <;> rfl
  | array (item :: items), index => by
    intro b
    have hitem := balanced_tokens item (index + 1) b
    have hitems := balanced_moreTokens items (index + 1 + item.text.length) b
    rw [tokens, ← List.singleton_append]
    simp only [count_append, hitem, hitems]
    cases b <;> simp +arith [count, Bracket.opening, Bracket.closing]
  | bool _, _ | Value.none, _ | float _, _ | string _, _ | object _, _ | name _, _ => by
    intro b
    cases b <;> rfl

theorem balanced_moreTokens : (items : List Value) → (index : Nat) →
    Balanced (moreTokens index items)
  | [], _ => fun _ => rfl
  | item :: items, index => by
    intro b
    have hitem := balanced_tokens item (index + 2) b
    have hitems := balanced_moreTokens items (index + 2 + item.text.length) b
    rw [moreTokens, ← List.singleton_append]
    simp only [count_append, hitem, hitems]
    cases b <;> rfl

end

/-! ## Trees -/

mutual

/-- The tree of the tokens. It counts only if the value is readable. -/
def tree (chars : Array Char) (index : Nat) : Value → Tree
  | bool b => .leaf .boolean ⟨boolText b, index⟩
  | int (.ofNat n) => .leaf .int ⟨toString n, index⟩
  | int (.negSucc n) =>
    .collapse chars .prefixed
      [.leaf .minus ⟨"-", index⟩, .leaf .int ⟨toString (n + 1), index + 1⟩]
  | array [] =>
    .collapse chars .array [.leaf .lsqb ⟨"[", index⟩, .leaf .rsqb ⟨"]", index + 1⟩]
  | array (item :: items) =>
    .collapse chars .array
      [.leaf .lsqb ⟨"[", index⟩,
        .collapse chars .arguments
          (item.tree chars (index + 1) :: moreTrees chars (index + 1 + item.text.length) items),
        .leaf .rsqb ⟨"]", index + 1 + item.text.length + (moreText items).length⟩]
  | value => .leaf .string ⟨value.text, index⟩

def moreTrees (chars : Array Char) (index : Nat) : List Value → List Tree
  | [] => []
  | item :: items =>
    .leaf .comma ⟨",", index⟩ :: item.tree chars (index + 2) ::
      moreTrees chars (index + 2 + item.text.length) items

end

theorem builds_int (n : Int) (index : Nat) (rest : List Token) :
    Builds chars [.node .expression] ((int n).tokens index ++ rest) [(int n).tree chars index]
      rest := by
  cases n with
  | ofNat n =>
    rw [tokens, tree]
    exact .operand .int ⟨toString n, index⟩ rest (by decide) nofun
  | negSucc n =>
    rw [tokens, tree]
    have hsigns : Builds chars [.many .signs] _ _ (⟨.int, ⟨toString (n + 1), index + 1⟩⟩ :: rest) :=
      (Builds.leaf .minus ⟨"-", index⟩ _).lastRound .signs [.terminal .minus] (by decide)
    have hatom : Builds chars [.node .atom] (⟨.int, ⟨toString (n + 1), index + 1⟩⟩ :: rest) _
        rest := (Builds.leaf _ _ rest).wrap (by decide) nofun
    -- The sign joins below the powers, so the chain of operands is left there.
    have hpostfixed := hatom.climb [.primary, .indexed, .postfixed] (by decide)
    have hprefixed := (hsigns.append hpostfixed).wrap (n := .prefixed) (by decide) nofun
    exact hprefixed.climb (operandChain.reverse.drop 5) (by decide)

mutual

theorem builds_tree : (value : Value) → value.isReadable = true → ∀ (index : Nat)
    (rest : List Token), Builds chars [.node .expression] (value.tokens index ++ rest)
      [value.tree chars index] rest
  | bool b, _, index, rest => by
    rw [tokens, tree]
    exact .operand .boolean ⟨boolText b, index⟩ rest (by decide) nofun
  | int n, _, index, rest => builds_int n index rest
  | array [], _, index, rest => by
    rw [tokens, tree]
    have hparts : Builds chars [.leaf .lsqb, .leaf .rsqb] _ _ rest :=
      .token .lsqb ⟨"[", index⟩ (.token .rsqb ⟨"]", index + 1⟩ (.nil rest))
    exact (hparts.wrap (n := .array) (by decide) nofun).climb operandChain.reverse (by decide)
  | array (item :: items), h, index, rest => by
    obtain ⟨hitem, hitems⟩ := Bool.and_eq_true_iff.mp h
    have hfirst := builds_tree item hitem (index + 1)
    have hmore := builds_moreTrees items hitems
    have harguments : ∀ after, Builds chars [.node .arguments]
        (item.tokens (index + 1) ++ (moreTokens (index + 1 + item.text.length) items ++ after))
        [.collapse chars .arguments
          (item.tree chars (index + 1) :: moreTrees chars (index + 1 + item.text.length) items)]
        after := fun after => by
      cases items with
      | nil => exact (hfirst after).climb [.arguments] (by decide)
      | cons next items =>
        exact ((hfirst _).append (hmore (List.cons_ne_nil next items) _ after)).wrap
          (n := .arguments) (by decide) nofun
    have hclosed := (harguments _).cons (.token .rsqb
      ⟨"]", index + 1 + item.text.length + (moreText items).length⟩ (.nil rest))
    have hparts := Builds.token .lsqb ⟨"[", index⟩ hclosed
    have harray := hparts.wrap (n := .array) (by decide) nofun
    rw [tokens, tree, List.cons_append, List.append_assoc, List.append_assoc]
    exact harray.climb operandChain.reverse (by decide)

theorem builds_moreTrees : (items : List Value) → areReadable items = true → items ≠ [] →
    ∀ (index : Nat) (rest : List Token), Builds chars [.many .moreArguments]
      (moreTokens index items ++ rest) (moreTrees chars index items) rest
  | [item], h, _, index, rest => by
    obtain ⟨hitem, -⟩ := Bool.and_eq_true_iff.mp h
    have hround := Builds.token .comma ⟨",", index⟩ (builds_tree item hitem (index + 2) rest)
    rw [moreTokens, moreTrees, List.cons_append, List.append_assoc]
    exact hround.lastRound .moreArguments [.terminal .comma, .nonterminal .expression] (by decide)
  | item :: next :: items, h, _, index, rest => by
    obtain ⟨hitem, hitems⟩ := Bool.and_eq_true_iff.mp h
    have hmore := builds_moreTrees (next :: items) hitems (List.cons_ne_nil next items)
      (index + 2 + item.text.length) rest
    have hround := Builds.token .comma ⟨",", index⟩ (builds_tree item hitem (index + 2)
      (moreTokens (index + 2 + item.text.length) (next :: items) ++ rest))
    rw [moreTokens, moreTrees, List.cons_append, List.append_assoc]
    exact hround.nextRound .moreArguments [.terminal .comma, .nonterminal .expression] (by decide)
      hmore

end

/-! ## The script -/

theorem site_collapse (rule : Rule) (first second : Tree) (others : List Tree) :
    (Tree.collapse chars rule (first :: second :: others)).site =
      Tree.span chars (first :: second :: others) := rfl

theorem site_tree (h : value.isReadable = true) :
    (value.tree value.text.toList.toArray 0).site = ⟨value.text, 0⟩ := by
  cases value with
  | bool b => rw [tree, Tree.site, text]
  | int n =>
    cases n with
    | ofNat n => rw [tree, Tree.site, text_ofNat]
    | negSucc n =>
      rw [tree, text_negSucc, site_collapse]
      refine Tree.span_of_edges rfl rfl rfl ?_
      rw [String.length_append]
      rfl
  | array items =>
    cases items with
    | nil =>
      rw [tree, site_collapse]
      exact Tree.span_of_edges rfl rfl rfl rfl
    | cons item items =>
      rw [tree, site_collapse]
      have hstop : 0 + 1 + item.text.length + (moreText items).length + "]".length =
          (array (item :: items)).text.length := by
        rw [text, itemTexts_cons, String.length_append, String.length_append, String.length_append]
        change _ = 1 + _ + _
        omega
      exact Tree.span_of_edges rfl rfl rfl hstop
  | _ => cases h

theorem parse_text (h : value.isReadable = true) : ∃ script, parse value.text =
    .ok (.node .script script
      [.node .line ⟨value.text, 0⟩ [value.tree value.text.toList.toArray 0]]) := by
  have hbuilds : Builds value.text.toList.toArray [.node .expression] (value.tokens 0 ++ [])
      [value.tree value.text.toList.toArray 0] [] := builds_tree value h 0 []
  rw [List.append_nil] at hbuilds
  rw [← Tree.span_whole (site_tree h)]
  exact parse_of_builds (lex_text h) (balanced_tokens value 0) hbuilds

theorem isLeaf_newline_tree (value : Value) (index : Nat) :
    (value.tree chars index).isLeaf .newline = false := by
  cases value with
  | int n => cases n <;> rw [tree] <;> rfl
  | array items => cases items <;> rw [tree] <;> rfl
  | _ => simp [tree, Tree.isLeaf]

end Value

end Calculator
