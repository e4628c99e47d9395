import Calculator.Proofs.Evaluation.Sequence
import Calculator.Proofs.Grammar.Spelling
import Calculator.Proofs.Relocation.Evaluation
import Calculator.Proofs.Relocation.Spread

/-!
# Scripts with blanks between two tokens

Blanks between two tokens leave the tokens, the tree and what a script does as they are. Only the
text of a function body tells what stands between its tokens.
-/

namespace Calculator

open Grammar Evaluation

/-- The bodies of the functions that a tree defines. -/
def Grammar.Tree.bodies (tree : Tree) : List Tree :=
  tree.subtrees.filterMap fun
    | .node .definition _ children => children.getLast?
    | _ => none

variable {setting : Setting} {before blanks behind source : String} {a b : List Token}
  {x y : Token} {tree head child : Tree} {rule : Rule} {site : Site} {children : List Tree}
  {move : Site → Site}

/-! ## Texts that are looked at -/

/-- What starts with a token in every way to write it starts with a leaf. -/
theorem Grammar.Shape.head_leaf (n : Nonterminal) (hn : n.rule? = some rule)
    (hsole : rule ∉ [Rule.indexed, .postfixed, .power]) (hscript : rule ≠ .script)
    (hline : rule ≠ .line)
    (hstarts : ∀ alternative ∈ n.alternatives, ∃ kind parts, alternative = .leaf kind :: parts)
    (h : Shape rule children) (hhead : head ∈ children.head?) :
    ∃ kind site, head = .leaf kind site := by
  obtain ⟨alternative, hmem, hspells⟩ :=
    spelled_by n hn hsole ((shape_iff hscript hline).mp h)
  obtain ⟨kind, parts, rfl⟩ := hstarts alternative hmem
  obtain ⟨_, others, ⟨site, rfl⟩, -, rfl⟩ := Spells.one_iff.mp hspells
  exact ⟨kind, site, (Option.some.inj hhead).symm⟩

theorem Grammar.Shape.call_head (h : Shape .call children) (hhead : head ∈ children.head?) :
    ∃ kind site, head = .leaf kind site :=
  h.head_leaf .call rfl (by decide) nofun nofun (by simp [Nonterminal.alternatives]) hhead

theorem Grammar.Shape.definition_head (h : Shape .definition children)
    (hhead : head ∈ children.head?) : ∃ kind site, head = .leaf kind site :=
  h.head_leaf .definition rfl (by decide) nofun nofun (by simp [Nonterminal.alternatives]) hhead

theorem Grammar.Shape.target_head (h : Shape .indexedTarget children)
    (hhead : head ∈ children.head?) : ∃ kind site, head = .leaf kind site :=
  h.head_leaf .indexedTarget rfl (by decide) nofun nofun (by simp [Nonterminal.alternatives]) hhead

theorem Grammar.Shape.assignment_head (h : Shape .assignment children)
    (hhead : head ∈ children.head?) :
    (∃ kind site, head = .leaf kind site) ∨
      ∃ site parts, head = .node .indexedTarget site parts := by
  obtain ⟨alternative, hmem, hspells⟩ := spelled_by .assignment rfl (by decide) h
  simp only [Nonterminal.alternatives, List.mem_cons, List.not_mem_nil, or_false] at hmem
  rcases hmem with rfl | rfl
  · obtain ⟨_, _, ⟨site, rfl⟩, -, rfl⟩ := Spells.one_iff.mp hspells
    exact .inl ⟨_, site, (Option.some.inj hhead).symm⟩
  · obtain ⟨target, _, htarget, -, rfl⟩ := Spells.one_iff.mp hspells
    obtain rfl : target = head := Option.some.inj hhead
    replace htarget := List.mem_singleton.mp htarget
    cases target with
    | leaf kind site => exact .inl ⟨kind, site, rfl⟩
    | node rule site parts =>
      cases rule
      case indexedTarget => exact .inr ⟨site, parts, rfl⟩
      all_goals cases htarget

theorem Grammar.Shape.decorator_parts (h : Shape .decorator children) (hchild : child ∈ children) :
    ∃ kind site, child = .leaf kind site := by
  obtain ⟨alternative, hmem, hspells⟩ := spelled_by .decorator rfl (by decide) h
  obtain rfl := List.mem_singleton.mp hmem
  simp only [Spells.one_iff, Spells.nil_iff] at hspells
  obtain ⟨_, _, ⟨_, rfl⟩, ⟨_, _, ⟨_, rfl⟩, rfl, rfl⟩, rfl⟩ := hspells
  simp only [List.mem_cons, List.not_mem_nil, or_false] at hchild
  rcases hchild with rfl | rfl <;> exact ⟨_, _, rfl⟩

namespace Evaluation

/-- A text that is looked at is the text of a token or of a function body. -/
theorem leaf_or_body (hparse : parse source = .ok tree)
    (hnode : .node rule site children ∈ tree.subtrees) (hchild : child ∈ textsRead rule children) :
    (∃ kind site, child = .leaf kind site ∧ child ∈ tree.subtrees) ∨ child ∈ tree.bodies := by
  have hshape := (shape_of_parse hparse hnode).1
  unfold textsRead at hchild
  split at hchild
  case h_1 =>
    have hhead := Option.mem_toList.mp hchild
    obtain ⟨kind, place, rfl⟩ := hshape.call_head hhead
    exact .inl ⟨kind, place, rfl, Tree.mem_subtrees_of_child (List.mem_of_head? hhead) hnode⟩
  case h_2 =>
    have htarget := Option.mem_toList.mp hchild
    cases children with
    | nil => cases htarget
    | cons head others =>
      have hhead : head ∈ tree.subtrees := Tree.mem_subtrees_of_child List.mem_cons_self hnode
      rcases hshape.assignment_head rfl with ⟨kind, place, rfl⟩ | ⟨place, parts, rfl⟩
      · cases htarget
        exact .inl ⟨kind, place, rfl, hhead⟩
      · obtain ⟨kind, place, rfl⟩ := (shape_of_parse hparse hhead).1.target_head htarget
        exact .inl ⟨kind, place, rfl, Tree.mem_subtrees_of_child (List.mem_of_head? htarget) hhead⟩
  case h_3 =>
    rcases List.mem_append.mp hchild with hchild | hchild
    · have hhead := Option.mem_toList.mp hchild
      obtain ⟨kind, place, rfl⟩ := hshape.definition_head hhead
      exact .inl ⟨kind, place, rfl, Tree.mem_subtrees_of_child (List.mem_of_head? hhead) hnode⟩
    · exact .inr (List.mem_filterMap.mpr ⟨_, hnode, Option.mem_toList.mp hchild⟩)
  case h_4 =>
    obtain ⟨kind, place, rfl⟩ := hshape.decorator_parts hchild
    exact .inl ⟨kind, place, rfl, Tree.mem_subtrees_of_child hchild hnode⟩
  case h_5 => cases hchild

theorem keepsTexts_of_parse (h : Joint before behind a x y b)
    (hparse : parse (before ++ behind) = .ok tree) (hbodies : ∀ body ∈ tree.bodies,
      body.stop ≤ before.length ∨ before.length ≤ body.site.index) (blanks : String) :
    KeepsTexts (Site.spread before.length blanks) tree := by
  have hleaf : ∀ kind site, .leaf kind site ∈ tree.subtrees →
      Keeps (Site.spread before.length blanks) site := by
    intro kind site hmem
    obtain ⟨lines, hread, rfl⟩ := (parse_eq_ofLines h.lexed).mp hparse
    have htoken := token_of_mem_subtrees hmem
    rw [Tree.tokens_ofLines (script_of_readTokens hread)] at htoken
    exact h.text_relocate blanks _ htoken
  intro inner hinner
  cases inner with
  | leaf kind site => exact hleaf kind site hinner
  | node rule site children =>
    intro child hchild
    rcases leaf_or_body hparse hinner hchild with ⟨kind, place, rfl, hmem⟩ | hbody
    · exact hleaf kind place hmem
    · exact Site.text_spread (hbodies child hbody)

end Evaluation

/-! ## Scripts -/

theorem ScriptResult.ofLines_relocate {trees : List Tree} (h : ∀ tree ∈ trees, KeepsTexts move tree)
    (results : List LineResult) :
    ofLines (Tree.relocateAll move trees) results = ofLines trees results := by
  rw [ofLines, ofLines, joinLines_relocate h]

/-- A source with the tree of another one, at other places, does the same. -/
theorem evaluate_relocate {other : String} (hsetting : setting.Carries move)
    (hparse : parse other = (Tree.relocate move <$> parse source).relocate move)
    (htexts : ∀ tree, parse source = .ok tree → KeepsTexts move tree) :
    Evaluation.Carried move (evaluate setting source) (evaluate setting other) := by
  intro memory
  cases hsource : parse source with
  | error failure =>
    rw [hsource] at hparse
    have hother : parse other = .error (failure.relocate move) := hparse
    rw [evaluate_apply, evaluate_apply, script, script, hsource, hother]
    exact ⟨rfl, .error (.inr rfl)⟩
  | ok tree =>
    rw [hsource] at hparse
    have hother : parse other = .ok (tree.relocate move) := hparse
    have hkeeps : ∀ child ∈ tree.children, KeepsTexts move child := by
      obtain ⟨site, children, rfl⟩ := parse_eq_script hsource
      exact (htexts _ hsource).below
    have hchildren : (tree.relocate move).children = Tree.relocateAll move tree.children := by
      cases tree <;> rfl
    have hresults : ScriptResult.ofLines (Tree.relocateAll move tree.children) =
        ScriptResult.ofLines tree.children := funext (ScriptResult.ofLines_relocate hkeeps)
    rw [evaluate_of_parse hsource, evaluate_of_parse hother, hchildren, hresults]
    exact (Evaluation.Carried.lines hsetting hkeeps).map _ memory

/--
Blanks between two tokens that touch leave the kinds and texts of all tokens as they are, and so the
tree but for its places. What the script does stays the same too, unless the blanks come into the
text of a function body. The token before the blanks has an end of its own: it is no zero with octal
digits, which is an octal number alone, and no quote that is open to the end of its line.
-/
theorem evaluate_insert (hsetting : ∀ move, setting.Carries move)
    (hjoint : Joint before behind a x y b) (hoctal : x.isBareOctal = false)
    (hopen : x.kind ≠ .openLiteral) (hblanks : ∀ c ∈ blanks.toList, c = ' ' ∨ c = '\t') :
    lex (before ++ blanks ++ behind) =
      ⟨a ++ x :: (y :: b).map (Token.shift blanks.length), none⟩ ∧
    parse (before ++ blanks ++ behind) =
      (Tree.relocate (Site.spread before.length blanks) <$> parse (before ++ behind)).relocate
        (Site.spread before.length blanks) ∧
    ((∀ tree, parse (before ++ behind) = .ok tree → ∀ body ∈ tree.bodies,
        body.stop ≤ before.length ∨ before.length ≤ body.site.index) →
      Evaluation.Carried (Site.spread before.length blanks)
        (evaluate setting (before ++ behind)) (evaluate setting (before ++ blanks ++ behind))) := by
  have hparse := hjoint.parse_insert hoctal hopen hblanks
  refine ⟨hjoint.lex_insert hoctal hopen hblanks, hparse, fun hbodies => ?_⟩
  exact evaluate_relocate (hsetting _) hparse fun tree htree =>
    keepsTexts_of_parse hjoint htree (hbodies tree htree) blanks

theorem lex_eq_mk {tokens : List Token} (htokens : (lex source).tokens = tokens)
    (hstuck : (lex source).stuck = none) : lex source = ⟨tokens, none⟩ :=
  congrArg₂ Lexed.mk htokens hstuck

/-- A comma behind a number with a comma in it. -/
theorem evaluate_insert_maximum :
    let setting : Setting := ⟨50, .builtin, .builtin, none, .still⟩
    (∀ move, setting.Carries move) ∧ ∃ a b, ∃ x y : Token, ∃ result after,
      Joint "max(1,200" ",3)" a x y b ∧ x.isBareOctal = false ∧ x.kind ≠ .openLiteral ∧
      (∀ c ∈ " \t".toList, c = ' ' ∨ c = '\t') ∧
      (∀ tree, parse ("max(1,200" ++ ",3)") = .ok tree → ∀ body ∈ tree.bodies,
        body.stop ≤ "max(1,200".length ∨ "max(1,200".length ≤ body.site.index) ∧
      (lex ("max(1,200" ++ " \t" ++ ",3)")).tokens = a ++ x :: (y :: b).map (Token.shift 2) ∧
      evaluate setting ("max(1,200" ++ ",3)") .empty = (.ok result, after) ∧
      result.text = "1200" ∧
      evaluate setting ("max(1,200" ++ " \t" ++ ",3)") .empty = (.ok result, after) := by
  intro setting
  have hsetting : ∀ move, setting.Carries move := fun _ => Setting.carries_builtin 50 none .still
  have hjoint : Joint "max(1,200" ",3)" [⟨.identifier, "max", 0⟩, ⟨.lpar, "(", 3⟩]
      ⟨.int, "1,200", 4⟩ ⟨.comma, ",", 9⟩ [⟨.int, "3", 10⟩, ⟨.rpar, ")", 11⟩] :=
    ⟨lex_eq_mk (by decide +kernel) (by decide +kernel), rfl, rfl⟩
  have hbodies : ∀ tree, parse ("max(1,200" ++ ",3)") = .ok tree → ∀ body ∈ tree.bodies,
      body.stop ≤ "max(1,200".length ∨ "max(1,200".length ≤ body.site.index := by
    have hnone : (parse ("max(1,200" ++ ",3)")).toOption.map (·.bodies) = some [] := by
      decide +kernel
    intro tree htree body hbody
    rw [htree] at hnone
    cases (Option.some.inj hnone : tree.bodies = []) ▸ hbody
  have hblanks : ∀ c ∈ " \t".toList, c = ' ' ∨ c = '\t' := by simp
  have htext : (evaluate setting ("max(1,200" ++ ",3)") .empty).1.toOption.map
      ScriptResult.text = some "1200" := by
    decide +kernel
  obtain ⟨hlex, -, hsame⟩ := evaluate_insert hsetting hjoint rfl nofun hblanks
  obtain ⟨hafter, hresult⟩ := hsame hbodies .empty
  rcases hfirst : evaluate setting ("max(1,200" ++ ",3)") .empty with ⟨_ | result, after⟩ <;>
    rw [hfirst] at htext hafter hresult
  · cases htext
  rcases hsecond : evaluate setting ("max(1,200" ++ " \t" ++ ",3)") .empty with ⟨_, last⟩
  rw [hsecond] at hafter hresult
  cases hafter
  cases hresult
  exact ⟨hsetting, _, _, _, _, result, after, hjoint, rfl, nofun, hblanks, hbodies,
    congrArg Lexed.tokens hlex, rfl, Option.some.inj htext, rfl⟩

/-- Where blanks between two tokens count. -/
theorem blanks_count :
    let setting : Setting := ⟨50, .builtin, .builtin, none, .still⟩
    (Joint "017" "e" [] ⟨.int, "017", 0⟩ ⟨.identifier, "e", 3⟩ [] ∧
      (lex ("017" ++ " " ++ "e")).tokens = [⟨.oct, "017", 0⟩, ⟨.identifier, "e", 4⟩]) ∧
    (Joint "'a" "\n" [] ⟨.openLiteral, "'a", 0⟩ ⟨.newline, "\n", 2⟩ [] ∧
      (lex ("'a" ++ " " ++ "\n")).tokens = [⟨.openLiteral, "'a ", 0⟩, ⟨.newline, "\n", 3⟩]) ∧
    (evaluate setting ("f(x) = x" ++ "+1") .empty).1.toOption.map (·.value.text) = some "x+1" ∧
    (evaluate setting ("f(x) = x" ++ " " ++ "+1") .empty).1.toOption.map (·.value.text) =
      some "x +1" := by
  refine ⟨⟨⟨lex_eq_mk ?_ ?_, rfl, rfl⟩, ?_⟩, ⟨⟨lex_eq_mk ?_ ?_, rfl, rfl⟩, ?_⟩, ?_, ?_⟩ <;>
    decide +kernel

end Calculator
