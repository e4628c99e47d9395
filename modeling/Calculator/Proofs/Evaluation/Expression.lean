import Calculator.Proofs.Evaluation.Rendering
import Calculator.Proofs.Evaluation.Sequence
import Calculator.Proofs.Grammar.Building

/-!
# Sources of one expression

Such a source comes to the value of its expression, written like any other value. No script comes to
a name that stands for nothing.
-/

namespace Calculator.Evaluation

open Grammar

variable {setting : Setting} {deeper : Deeper} {source : String} {script site : Site} {tree : Tree}
  {children : List Tree} {outcomes : List Outcome} {value : Value} {failure : Failure}
  {memory after : Memory}

/-! ## Values of scripts -/

theorem length_of_walkAll {namesFirst : Bool}
    (h : walkAll setting deeper namesFirst children memory = (.ok outcomes, after)) :
    outcomes.length = children.length := by
  induction children generalizing namesFirst outcomes memory with
  | nil =>
    cases h
    rfl
  | cons tree trees ih =>
    rw [walkAll, bind_apply] at h
    rcases hfirst : ((bareName namesFirst tree).elim (walk setting deeper tree) pure) memory with
      ⟨_ | outcome, middle⟩ <;> rw [hfirst] at h
    · cases h
    · dsimp only at h
      rw [bind_apply] at h
      rcases hothers : walkAll setting deeper false trees middle with ⟨_ | others, last⟩ <;>
        rw [hothers] at h <;> cases h
      exact congrArg (· + 1) (ih hothers)

theorem name?_of_refuseNames (h : refuseNames children outcomes = .ok ())
    (hlength : outcomes.length = children.length) : ∀ outcome ∈ outcomes, outcome.name? = none := by
  induction children generalizing outcomes with
  | nil =>
    rw [List.length_eq_zero_iff.mp hlength]
    exact List.forall_mem_nil _
  | cons tree trees ih =>
    cases outcomes with
    | nil => cases hlength
    | cons outcome outcomes =>
      rw [refuseNames] at h
      split at h
      case h_1 => cases h
      case h_2 hname => exact List.forall_mem_cons.mpr ⟨hname, ih h (Nat.succ.inj hlength)⟩

theorem refuseNames_of_forall (h : ∀ outcome ∈ outcomes, outcome.name? = none) :
    refuseNames children outcomes = .ok () := by
  induction children generalizing outcomes with
  | nil => rfl
  | cons tree trees ih =>
    cases outcomes with
    | nil => rfl
    | cons outcome outcomes =>
      obtain ⟨hname, hnames⟩ := List.forall_mem_cons.mp h
      rw [refuseNames, hname]
      exact ih hnames

theorem lineValue_name? (h : ∀ outcome ∈ outcomes, outcome.name? = none) :
    (lineValue outcomes).name? = none := by
  have hfound : ∀ found : Option Value, (∀ value ∈ found, value.name? = none) →
      (found.getD .none).name? = none := by
    rintro (_ | value) hvalue
    · rfl
    · exact hvalue value rfl
  refine hfound _ fun value hvalue => ?_
  obtain ⟨outcome, hmem, hvalue⟩ := List.exists_of_findSome?_eq_some hvalue
  have hname := h outcome hmem
  unfold Outcome.name? at hname
  split at hvalue
  case h_1 hmeaning =>
    rw [hmeaning] at hname
    cases hvalue
    exact hname
  case h_2 => cases hvalue

theorem line_name? {result : LineResult}
    (h : line setting deeper site children memory = (.ok result, after)) :
    result.value.name? = none := by
  rw [line, bind_apply] at h
  rcases hwalk : walkAll setting deeper false children memory with ⟨_ | outcomes, middle⟩ <;>
    rw [hwalk] at h
  · cases h
  · dsimp only at h
    cases hnames : refuseNames children outcomes with
    | error failure =>
      rw [hnames] at h
      cases h
    | ok =>
      rw [hnames, ofAttempt, pure_bind, bind_apply] at h
      rcases hwritten : decorate setting site
        (lineDecorator (Outcome.formatOf outcomes) outcomes) (lineValue outcomes) middle with
        ⟨_ | text, last⟩ <;> rw [hwritten] at h <;> cases h
      exact lineValue_name? (name?_of_refuseNames hnames (length_of_walkAll hwalk))

theorem lines_name? {trees : List Tree} {results : List LineResult}
    (h : lines setting deeper trees memory = (.ok results, after)) :
    ∀ result ∈ results, result.value.name? = none := by
  induction trees generalizing memory results with
  | nil =>
    cases h
    exact List.forall_mem_nil _
  | cons tree trees ih =>
    obtain ⟨kind, place⟩ | ⟨rule, place, children⟩ := tree
    · cases h
    · cases rule
      case line =>
        rw [lines, bind_apply] at h
        rcases hline : line setting deeper place children memory with ⟨_ | result, middle⟩ <;>
          rw [hline] at h
        · cases h
        · dsimp only at h
          rw [bind_apply] at h
          rcases hothers : lines setting deeper trees middle with ⟨_ | others, last⟩ <;>
            rw [hothers] at h <;> cases h
          exact List.forall_mem_cons.mpr ⟨line_name? hline, ih hothers⟩
      all_goals cases h

/-- Names that stand for nothing are refused before a line is written. -/
theorem evaluate_name? {result : ScriptResult}
    (h : evaluate setting source memory = (.ok result, after)) : result.value.name? = none := by
  cases hparse : parse source with
  | error failure =>
    rw [evaluate_apply, Evaluation.script, hparse] at h
    cases h
  | ok tree =>
    rw [evaluate_of_parse hparse, map_apply] at h
    rcases hlines : lines setting (deeperFor setting memory.depth) tree.children memory with
      ⟨_ | results, last⟩ <;> rw [hlines] at h <;> cases h
    have hnames := lines_name? hlines
    rw [ScriptResult.ofLines]
    cases hlast : results.getLast? with
    | none => rfl
    | some result => exact hnames result (List.mem_of_getLast? hlast)

/-! ## Scripts of one expression -/

theorem call_default
    (hdefault : setting.decorators.find? "default" = DecoratorTable.builtin.find? "default")
    (site : Site) (value : Value) :
    setting.decorators.call site "default" value = .ok (Builtin.writeDefault value) := by
  rw [DecoratorTable.call, hdefault]
  exact DecoratorTable.builtin_call_default site value

/-- A line of one expression comes to its value. -/
theorem line_of_value (hname : value.name? = none)
    (hwalk : walk setting deeper tree memory = (.ok (Outcome.ofValue value), after))
    (site : Site) :
    line setting deeper site [tree] memory =
      ((fun text => ⟨text, value, .default⟩) <$> setting.decorators.call site "default" value,
        after) := by
  have hbelow : walkAll setting deeper false [tree] memory =
      (.ok [Outcome.ofValue value], after) := by
    have hbare : bareName false tree = none := rfl
    rw [walkAll, bind_apply, hbare, Option.elim_none, hwalk]
    rfl
  have hnames : refuseNames [tree] [Outcome.ofValue value] = .ok () :=
    refuseNames_of_forall (List.forall_mem_singleton.mpr hname)
  have hwritten : decorate setting site "default" value =
      ofAttempt (setting.decorators.call site "default" value) :=
    decorate_format site .default value
  rw [line, bind_apply, hbelow]
  dsimp only
  rw [hnames]
  change ((fun text => (⟨text, value, .default⟩ : LineResult)) <$>
    decorate setting site "default" value) after = _
  rw [hwritten, map_apply]
  cases setting.decorators.call site "default" value <;> rfl

section

variable (hparse : parse source = .ok (.node .script script [.node .line site [tree]]))

include hparse

theorem evaluate_of_failure
    (hwalk : walk setting (deeperFor setting memory.depth) tree memory =
      (.error failure, after)) :
    evaluate setting source memory = (.error failure, after) := by
  have hbelow : walkAll setting (deeperFor setting memory.depth) false [tree] memory =
      (.error failure, after) := by
    have hbare : bareName false tree = none := rfl
    rw [walkAll, bind_apply, hbare, Option.elim_none, hwalk]
  rw [evaluate_of_parse hparse, map_apply, Tree.children, lines, bind_apply, line, bind_apply,
    hbelow]
  rfl

theorem evaluate_of_value (hnewline : tree.isLeaf .newline = false) (hname : value.name? = none)
    (hwalk : walk setting (deeperFor setting memory.depth) tree memory =
      (.ok (Outcome.ofValue value), after)) :
    evaluate setting source memory =
      ((fun text => ⟨[⟨text, value, .default⟩], text, value⟩) <$>
        setting.decorators.call site "default" value, after) := by
  have hend : lineEnd (.node .line site [tree]) = "" := by
    simp [lineEnd, Tree.children, hnewline]
  rw [evaluate_of_parse hparse, map_apply, Tree.children, lines, bind_apply,
    line_of_value hname hwalk]
  cases setting.decorators.call site "default" value with
  | error failure => rfl
  | ok text =>
    have htext : joinLines [.node .line site [tree]] [⟨text, value, .default⟩] = text := by
      simp [joinLines, hend, String.join]
    change (Except.ok (ScriptResult.ofLines [.node .line site [tree]] [⟨text, value, .default⟩]),
      after) = _
    rw [ScriptResult.ofLines, htext]
    rfl

end

theorem leaf_of_literal {kind : Terminal} (hkind : kind ≠ .identifier) :
    leaf kind site = ofAttempt (literal kind site) := by
  unfold leaf
  split
  · contradiction
  · rfl

section

variable {kind : Terminal} (hlex : lex source = ⟨[⟨kind, ⟨source, 0⟩⟩], none⟩)
  (hoperand : kind.isOperand) (hkind : kind ≠ .identifier)

include hlex hoperand hkind

/-- A source of one literal comes to its value, and changes nothing. -/
theorem evaluate_of_literal (hname : value.name? = none)
    (hliteral : literal kind ⟨source, 0⟩ = .ok (Outcome.ofValue value))
    (setting : Setting) (memory : Memory) : evaluate setting source memory =
      ((fun text => ⟨[⟨text, value, .default⟩], text, value⟩) <$>
        setting.decorators.call ⟨source, 0⟩ "default" value, memory) := by
  have hwalk : walk setting (deeperFor setting memory.depth) (.leaf kind ⟨source, 0⟩) memory =
      (.ok (Outcome.ofValue value), memory) := by
    rw [walk, leaf_of_literal hkind, hliteral]
    rfl
  have hnewline : (Tree.leaf kind ⟨source, 0⟩).isLeaf .newline = false := by
    cases kind <;> first | rfl | contradiction
  exact evaluate_of_value (parse_of_operand hlex hoperand) hnewline hname hwalk

/-- A literal that stands for no value stops the script. -/
theorem evaluate_of_refused (hliteral : literal kind ⟨source, 0⟩ = .error failure)
    (setting : Setting) (memory : Memory) :
    evaluate setting source memory = (.error failure, memory) := by
  have hwalk : walk setting (deeperFor setting memory.depth) (.leaf kind ⟨source, 0⟩) memory =
      (.error failure, memory) := by
    rw [walk, leaf_of_literal hkind, hliteral]
    rfl
  exact evaluate_of_failure (parse_of_operand hlex hoperand) hwalk

end

end Calculator.Evaluation
