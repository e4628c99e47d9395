import Calculator.Evaluation.Script
import Calculator.Proofs.Evaluation.Depth
import Calculator.Proofs.Hazard.Decorator
import Calculator.Proofs.Hazard.Function
import Calculator.Proofs.Hazard.Task

/-!
# How scripts fail

A script fails in a hazardous way only if something that it calls does, or if its tree is not as the
grammar makes trees. Scripts inside of scripts are no exception.
-/

namespace Calculator

open Grammar Evaluation Number

variable {hazard : Hazard} {setting : Setting} {deeper : Deeper} {α β : Type}

/-! ## Computations -/

/-- From every memory, comes to something as described or fails in a way that is no hazard. -/
def Evaluation.Avoids (hazard : Hazard) (post : α → Prop) (e : Evaluation α) : Prop :=
  ∀ memory, Attempt.Avoids hazard post (e memory).1

abbrev Evaluation.Safe (hazard : Hazard) (e : Evaluation α) : Prop := e.Avoids hazard fun _ => True

namespace Evaluation.Avoids

variable {post : α → Prop} {next : β → Prop}

theorem attempt {attempt : Attempt α} (h : attempt.Avoids hazard post) :
    Avoids hazard post (ofAttempt attempt) := by
  intro memory
  cases h with
  | ok h => exact .ok h
  | failed h => exact .failed h

theorem pure {a : α} (h : post a) : Avoids hazard post (Pure.pure a) := fun _ => .ok h

theorem fail {site : Site} {cause : Cause} (h : cause.isSpecial = false) :
    Avoids hazard post (Evaluation.fail site cause) := fun _ => .error h

theorem bind {e : Evaluation α} {f : α → Evaluation β} (h : e.Avoids hazard post)
    (hnext : ∀ a, post a → (f a).Avoids hazard next) : (e >>= f).Avoids hazard next := by
  intro memory
  rw [bind_apply]
  have hfirst := h memory
  rcases hrun : e memory with ⟨result, after⟩
  rw [hrun] at hfirst
  cases hfirst with
  | ok ha => exact hnext _ ha after
  | failed hfailure => exact .failed hfailure

theorem map {e : Evaluation α} {f : α → β} (h : e.Avoids hazard post)
    (hf : ∀ a, post a → next (f a)) : (f <$> e).Avoids hazard next := by
  rw [← bind_pure_comp]
  exact h.bind fun a ha => .pure (hf a ha)

theorem look {f : Memory → Evaluation α} (h : ∀ memory, (f memory).Avoids hazard post) :
    (get >>= f).Avoids hazard post := fun memory => h memory memory

theorem modify (change : Memory → Memory) :
    Safe hazard (modify change : Evaluation Unit) := fun _ => .ok trivial

theorem draw : Safe hazard Evaluation.draw := fun _ => .ok trivial

theorem visit {visit : Visit α} (h : ∀ bindings, Attempt.Avoids hazard post (visit bindings).1) :
    Avoids hazard post (ofVisit visit) := by
  intro memory
  rw [ofVisit_apply]
  exact h memory.bindings

theorem oneDeeper {e : Evaluation α} (h : e.Avoids hazard post) :
    (Evaluation.oneDeeper e).Avoids hazard post := fun memory => h memory.descend

theorem apart {e : Evaluation α} (prepare : Memory → Memory) (h : e.Avoids hazard post) :
    (Evaluation.apart prepare e).Avoids hazard post := fun memory => h (prepare memory)

end Evaluation.Avoids

/-! ## What a script calls -/

/-- The function never fails in a hazardous way when it is called like this. -/
def Behaviour.Quiet (hazard : Hazard) (world : World) (call : Call) : Behaviour → Prop
  | .compute f => (f call).Safe hazard
  | .consult f => (f world call).Safe hazard
  | .draw f => ∀ drawn, (f drawn call).Safe hazard
  | .help => True
  | .run => (call.required "expression").Safe hazard
  | .runFile => (call.required "filename").Safe hazard

/-- Foreign code raises no hazard. -/
structure Host.Quiet (hazard : Hazard) (host : Host) : Prop where
  functions : ∀ name function, host.function? name = some function →
    ∀ arguments bindings failure,
      (function arguments bindings).finish = .raised failure → ¬hazard.Holds failure
  decorators : ∀ name decorator, host.decorator? name = some decorator →
    ∀ value bindings failure,
      (decorator value bindings).finish = .raised failure → ¬hazard.Holds failure

/-- Nothing that scripts call fails in a hazardous way, other scripts apart. -/
structure Setting.Quiet (hazard : Hazard) (setting : Setting) : Prop where
  functions : ∀ function ∈ setting.functions.functions, ∀ site values bound,
    function.signature.bind site values = .ok bound →
      function.behaviour.Quiet hazard setting.world ⟨site, function.signature, bound⟩
  decorators : ∀ decorator ∈ setting.decorators.decorators, decorator.Safe hazard
  host : ∀ host ∈ setting.host, host.Quiet hazard

/-- Nothing that a script calls fails in a hazardous way. -/
structure Quiet (hazard : Hazard) (setting : Setting) (deeper : Deeper) : Prop
    extends Setting.Quiet hazard setting where
  scripts : ∀ source, (deeper source).Safe hazard

namespace Evaluation

/-! ## Variables -/

theorem leaf_avoids {kind : Terminal} {site : Site}
    (hnumber : kind = .int → (readInteger? (removeCommas site.text)).isSome)
    (hslip : ∀ slip ∈ kind.slip?, ¬hazard.Holds (.located site (.slip slip))) :
    (leaf kind site).Avoids hazard (·.meaning.role = kind.role) := by
  unfold leaf
  split
  · refine .map (?_ : Safe hazard _) fun _ _ => rfl
    exact .look fun _ => .pure trivial
  · exact .attempt (literal_avoids ‹_› hnumber hslip)

theorem assign_safe (site : Site) (name : String) (value : Value) :
    (assign site name value).Safe hazard := by
  unfold assign
  split
  · exact .fail rfl
  · exact .modify _

theorem updateItem_safe (site : Site) (items : List Value) (index value : Value) :
    (updateItem site items index value).Safe hazard := by
  unfold updateItem
  split
  · split
    · exact .ok trivial
    · split
      · exact .ok trivial
      · exact .fail rfl
  · exact .fail rfl
  · exact .fail rfl

theorem updated_safe (site : Site) (container index value : Value) :
    (updated site container index value).Safe hazard := by
  unfold updated
  split
  · exact .ok trivial
  · exact .lift (updateItem_safe site _ index value)
  · exact .fail rfl

theorem assignIndexed_safe (site : Site) (name : String) (index value : Value) :
    (assignIndexed site name index value).Safe hazard := by
  unfold assignIndexed
  split
  · exact .fail rfl
  · apply Avoids.look
    intro memory
    split
    · exact .fail rfl
    · exact .bind (.attempt (updated_safe _ _ _ _)) fun _ _ => assign_safe _ _ _

theorem define_safe {site : Site} {children : List Tree} (hne : children ≠ []) :
    (define site children).Safe hazard := by
  unfold define
  split
  · exact .bind (.modify _) fun _ _ => .bind (.modify _) fun _ _ => .pure trivial
  case h_2 hnone =>
    have hhead := List.head?_eq_some_head hne
    have hlast := List.getLast?_eq_some_getLast hne
    exact absurd hlast (hnone _ _ hhead)

/-! ## Calls -/

theorem helpFor_safe (setting : Setting) (call : Call) : (helpFor setting call).Safe hazard := by
  unfold helpFor
  apply Avoids.look
  intro memory
  split
  · exact .pure trivial
  · split
    · exact .pure trivial
    · exact .fail rfl

theorem runNested_safe (h : ∀ source, (deeper source).Safe hazard) (site : Site)
    (source : String) : (runNested setting deeper site source).Safe hazard := by
  apply Avoids.look
  intro memory
  split
  · exact .fail rfl
  · exact .oneDeeper (h source)

theorem callDefinition_safe (h : ∀ source, (deeper source).Safe hazard) (site : Site)
    (definition : Definition) (arguments : List Value) :
    (callDefinition setting deeper site definition arguments).Safe hazard := by
  intro memory
  rw [callDefinition_apply]
  split
  · exact .error rfl
  · split
    · exact .error rfl
    · exact Avoids.apart _ (h definition.body) memory

theorem behave_safe (h : ∀ source, (deeper source).Safe hazard) {call : Call}
    {behaviour : Behaviour} (hbehaviour : behaviour.Quiet hazard setting.world call) :
    (behave setting deeper call behaviour).Safe hazard := by
  cases behaviour with
  | compute f => exact .attempt hbehaviour
  | consult f => exact .attempt hbehaviour
  | draw f => exact .bind .draw fun drawn _ => .attempt (hbehaviour _)
  | help => exact helpFor_safe setting call
  | run => exact .bind (.attempt hbehaviour) fun source _ => runNested_safe h _ _
  | runFile =>
    refine .bind (.attempt hbehaviour) fun path _ => ?_
    exact .bind (.attempt (World.sourceFor_safe _ _ _)) fun source _ => runNested_safe h _ _

theorem bind_safe (signature : Signature) (site : Site) (values : List Value) :
    (signature.bind site values).Safe hazard := by
  have hfrom : ∀ (values : List Value) i arguments,
      (signature.bindFrom site i arguments values).Safe hazard := by
    intro values
    induction values with
    | nil => exact fun _ _ => .ok trivial
    | cons value values ih =>
      intro i arguments
      rw [Signature.bindFrom]
      split
      · exact .ok trivial
      · split
        · exact ih _ _
        · exact .fail rfl
  unfold Signature.bind
  split
  · exact .fail rfl
  · split
    · exact .fail rfl
    · exact hfrom _ _ _

theorem callFunction_safe (hquiet : Quiet hazard setting deeper) {function : Function}
    (hfunction : function ∈ setting.functions.functions) (site : Site) (arguments : List Value) :
    (callFunction setting deeper site function arguments).Safe hazard := by
  unfold callFunction
  cases hbound : function.signature.bind site arguments with
  | error failure =>
    have hsafe : (function.signature.bind site arguments).Safe hazard := bind_safe _ _ _
    rw [hbound] at hsafe
    cases hsafe with
    | failed hfailure => exact fun _ => .failed hfailure
  | ok bound =>
    exact behave_safe hquiet.scripts (hquiet.functions function hfunction site arguments bound hbound)

theorem visit_safe {host : Host} {site : Site} {label : String} {work : Bindings → Reply α}
    (h : ∀ bindings failure, (work bindings).finish = .raised failure → ¬hazard.Holds failure)
    (bindings : Bindings) : Attempt.Safe hazard (host.visit site label work bindings).1 := by
  have hfinish : (host.finishWith site label (work bindings).finish).Safe hazard := by
    cases hfinish : (work bindings).finish with
    | returned a => exact .ok trivial
    | failed complaint => exact .fail rfl
    | timedOut => exact .fail rfl
    | raised failure => exact .failed (h bindings failure hfinish)
  unfold Host.visit
  dsimp only
  generalize host.finishWith site label (work bindings).finish = result at hfinish
  split
  · exact hfinish
  · split
    · exact .fail rfl
    · cases hfinish with
      | ok h => exact .ok h
      | failed h => exact .failed h

theorem visitFor_safe {host : Host} {site : Site} {label : String} {work : Bindings → Reply α}
    {read : α → Attempt β}
    (h : ∀ bindings failure, (work bindings).finish = .raised failure → ¬hazard.Holds failure)
    (hread : ∀ a, (read a).Safe hazard) (bindings : Bindings) :
    Attempt.Safe hazard (host.visitFor site label work read bindings).1 :=
  .bind (visit_safe h bindings) fun a _ => hread a

theorem valueOf_safe (site : Site) (name : String) (plain : Plain) :
    (Host.valueOf site name plain).Safe hazard := by
  unfold Host.valueOf
  split
  · exact .ok trivial
  · exact .fail rfl

theorem textOf_safe (shown : Shown) : (Host.textOf shown).Safe hazard := by
  cases shown with
  | value v => exact .ok trivial
  | text s => exact .ok trivial
  | textless what => exact .error rfl

theorem callHost_safe {host : Host} (h : host.Quiet hazard) (site : Site) (name : String)
    (arguments : List Value) : (ofVisit (host.callFunction site name arguments)).Safe hazard := by
  apply Avoids.visit
  intro bindings
  unfold Host.callFunction
  cases hfunction : host.function? name with
  | none => exact .fail rfl
  | some function =>
    exact visitFor_safe (h.functions name function hfunction arguments) (valueOf_safe site name)
      bindings

theorem callName_safe (hquiet : Quiet hazard setting deeper) (site : Site) (name : String)
    (arguments : List Value) : (callName setting deeper site name arguments).Safe hazard := by
  apply Avoids.look
  intro memory
  cases hhost : setting.host.filter fun host => (host.function? name).isSome with
  | some host =>
    exact callHost_safe (hquiet.host host (Option.filter_eq_some_iff.mp hhost).1) site name arguments
  | none =>
    cases hfound : setting.functions.find? name with
    | some function =>
      exact callFunction_safe hquiet (List.mem_of_find?_eq_some hfound) site arguments
    | none =>
      cases memory.definitions.lookup name with
      | some definition => exact callDefinition_safe hquiet.scripts site definition arguments
      | none => exact .fail rfl

theorem decorate_safe (hquiet : Quiet hazard setting deeper) (site : Site) (name : String)
    (value : Value) : (decorate setting site name value).Safe hazard := by
  unfold decorate
  dsimp only
  split
  case h_1 host _ hhost =>
    apply Avoids.visit
    intro bindings
    unfold Host.callDecorator
    cases hdecorator : host.decorator? name with
    | none => exact .fail rfl
    | some decorator =>
      have hhost := hquiet.host host (Option.filter_eq_some_iff.mp hhost).1
      exact visitFor_safe (hhost.decorators name decorator hdecorator value) textOf_safe bindings
  case h_2 => exact .attempt (DecoratorTable.call_safe hquiet.decorators site name value)

/-! ## Trees -/

theorem perform_avoids (hquiet : Quiet hazard setting deeper) (site : Site) (format : Format)
    (task : Task) :
    (perform setting deeper site format task).Avoids hazard (·.meaning.role = task.role) := by
  cases task with
  | finish outcome => exact .pure rfl
  | assign name v => exact .bind (assign_safe site name v) fun _ _ => .pure rfl
  | assignIndexed name index v =>
    exact .bind (assignIndexed_safe site name index v) fun _ _ => .pure rfl
  | call name arguments =>
    exact .bind (callName_safe hquiet site name arguments) fun _ _ => .pure rfl

end Evaluation

/-- A tree as the grammar makes it, in which nothing hazardous is left open. -/
def Grammar.Tree.Sound (hazard : Hazard) : Tree → Prop
  | .leaf kind site =>
    (kind = .int → (readInteger? (removeCommas site.text)).isSome) ∧
      ∀ slip ∈ kind.slip?, ¬hazard.Holds (.located site (.slip slip))
  | .node rule site children =>
    (Shape rule children ∧ (rule.staysAlone ∨ children.length ≠ 1)) ∧
      ∀ slip ∈ slip? rule, ¬hazard.Holds (.located site (.slip slip))

namespace Evaluation

theorem node_avoids (hquiet : Quiet hazard setting deeper) {site : Site} {rule : Rule}
    {children : List Tree} {below : Evaluation (List Outcome)} (hwalked : isWalked rule)
    (hshape : Shape rule children)
    (hslip : ∀ slip ∈ slip? rule, ¬hazard.Holds (.located site (.slip slip)))
    (hbelow : below.Avoids hazard fun outcomes =>
      Plays rule children (outcomes.map (·.meaning))) :
    (node setting deeper site rule children below).Avoids hazard
      (·.meaning.role = rule.role) := by
  unfold node
  split
  case h_1 slip hopen => exact fun _ => .failed (hslip slip hopen)
  case h_2 hclosed =>
    apply Avoids.bind hbelow
    intro outcomes hplays
    apply Avoids.bind (.attempt (checkNames_safe _ _ _))
    intro _ _
    apply Avoids.bind (.attempt (task_avoids hwalked hclosed hshape hplays))
    intro task htask
    rw [← htask]
    exact perform_avoids hquiet site _ task

theorem conditionOf_safe (site : Site) {outcome : Outcome} (h : outcome.meaning.role = .value) :
    (conditionOf site outcome).Safe hazard := by
  obtain ⟨v, hv⟩ := Meaning.role_eq_value.mp h
  unfold conditionOf
  rw [hv]
  cases v with
  | name s => exact .fail rfl
  | _ => exact .ok trivial

theorem decoratorOutcome_avoids {site : Site} {children : List Tree}
    (h : Shape .decorator children) :
    (decoratorOutcome site children).Avoids hazard (·.meaning.role = .decorator) := by
  obtain ⟨alternative, hmem, h⟩ := spelled_by .decorator rfl (by decide) h
  obtain rfl := List.mem_singleton.mp hmem
  simp only [Spells.one_iff, Spells.nil_iff] at h
  obtain ⟨_, _, -, ⟨_, _, -, rfl, rfl⟩, rfl⟩ := h
  exact .ok rfl

/-- A conditional that stays alone has all of its five parts. -/
theorem parts_of_ternary {children : List Tree} (h : Shape .ternary children)
    (hlength : children.length ≠ 1) : ∃ condition question yes colon no,
      children = [condition, question, yes, colon, no] ∧ condition.role = .value ∧
        yes.role = .value ∧ no.role = .value := by
  obtain ⟨alternative, hmem, h⟩ := spelled_by .ternary rfl (by decide) h
  simp only [Nonterminal.alternatives, List.mem_cons, List.not_mem_nil, or_false] at hmem
  rcases hmem with rfl | rfl
  · simp only [Spells.one_iff, Spells.nil_iff] at h
    obtain ⟨_, _, -, rfl, rfl⟩ := h
    exact absurd rfl hlength
  · simp only [Spells.one_iff, Spells.nil_iff] at h
    obtain ⟨condition, _, hcondition, ⟨question, _, -, ⟨yes, _, hyes, ⟨colon, _, -, ⟨no, _, hno,
      rfl, rfl⟩, rfl⟩, rfl⟩, rfl⟩, rfl⟩ := h
    exact ⟨_, _, _, _, _, rfl, List.mem_singleton.mp hcondition, List.mem_singleton.mp hyes,
      List.mem_singleton.mp hno⟩

theorem ne_nil_of_shape {children : List Tree} (h : Shape .definition children) :
    children ≠ [] := by
  obtain ⟨n, -, alternative, hmem, h⟩ := h
  rintro rfl
  have hpos := List.length_pos_iff.mpr (Nonterminal.ne_nil_of_mem_alternatives _ _ hmem)
  exact absurd h.length_le (Nat.not_le_of_lt hpos)

theorem bareName_cases {namesFirst : Bool} {tree : Tree} {outcome : Outcome}
    (h : bareName namesFirst tree = some outcome) : outcome.meaning.role = .mark .identifier := by
  unfold bareName at h
  split at h
  · cases h
    rfl
  · cases h

mutual

theorem walk_avoids (hquiet : Quiet hazard setting deeper) : (tree : Tree) →
    (∀ t ∈ tree.subtrees, t.Sound hazard) → tree.role ≠ .line →
      (walk setting deeper tree).Avoids hazard (·.meaning.role = tree.role)
  | .leaf kind site, hsound, _ => by
    obtain ⟨hnumber, hslip⟩ := hsound _ (List.mem_singleton_self _)
    exact leaf_avoids hnumber hslip
  | .node rule site children, hsound, hline => by
    obtain ⟨⟨hshape, hstays⟩, hslip⟩ := hsound _ List.mem_cons_self
    have hinside : ∀ t ∈ Tree.subtreesOf children, t.Sound hazard := fun t ht =>
      hsound t (List.mem_cons_of_mem _ ht)
    have hscript : rule ≠ .script := by
      rintro rfl
      exact hline rfl
    have hlines := hshape.role_ne_line hscript
    -- Conditionals, definitions and decorators do not walk all of their children.
    by_cases hternary : rule = .ternary
    · subst hternary
      exact walkTernary_avoids hquiet site children hinside hlines hshape
        (hstays.resolve_left (by decide))
    by_cases hdefinition : rule = .definition
    · subst hdefinition
      exact .map (define_safe (ne_nil_of_shape hshape)) fun _ _ => rfl
    by_cases hdecorator : rule = .decorator
    · subst hdecorator
      exact .attempt (decoratorOutcome_avoids hshape)
    rw [walk_node _ _ hternary hdefinition hdecorator]
    have hwalked : isWalked rule := by
      cases rule <;> first | rfl | exact absurd rfl hline | contradiction
    exact node_avoids hquiet hwalked hshape hslip (walkAll_avoids hquiet _ children hinside hlines)

theorem walkTernary_avoids (hquiet : Quiet hazard setting deeper) (site : Site) :
    (children : List Tree) → (∀ t ∈ Tree.subtreesOf children, t.Sound hazard) →
      (∀ child ∈ children, child.role ≠ .line) → Shape .ternary children →
        children.length ≠ 1 →
          (walkTernary setting deeper site children).Avoids hazard (·.meaning.role = .value)
  | [condition, question, yes, colon, no], hsound, hlines, hshape, hlength => by
    obtain ⟨_, _, _, _, _, heq, hcondition, hyes, hno⟩ := parts_of_ternary hshape hlength
    cases heq
    have hinside : ∀ tree ∈ [condition, question, yes, colon, no],
        ∀ t ∈ tree.subtrees, t.Sound hazard := fun tree htree t ht =>
      hsound t (Tree.mem_subtreesOf.mpr ⟨tree, htree, ht⟩)
    have hfirst := walk_avoids hquiet condition (hinside _ (by simp)) (hlines _ (by simp))
    apply Avoids.bind hfirst
    intro outcome houtcome
    apply Avoids.bind (.attempt (conditionOf_safe _ (houtcome.trans hcondition)))
    intro holds _
    cases holds with
    | true =>
      rw [← hyes]
      exact walk_avoids hquiet yes (hinside _ (by simp)) (hlines _ (by simp))
    | false =>
      rw [← hno]
      exact walk_avoids hquiet no (hinside _ (by simp)) (hlines _ (by simp))
  | [], _, _, hshape, hlength | [_], _, _, hshape, hlength | [_, _], _, _, hshape, hlength
  | [_, _, _], _, _, hshape, hlength | [_, _, _, _], _, _, hshape, hlength
  | _ :: _ :: _ :: _ :: _ :: _ :: _, _, _, hshape, hlength => by
    obtain ⟨_, _, _, _, _, heq, -⟩ := parts_of_ternary hshape hlength
    cases heq

theorem walkAll_avoids (hquiet : Quiet hazard setting deeper) (namesFirst : Bool) :
    (trees : List Tree) → (∀ t ∈ Tree.subtreesOf trees, t.Sound hazard) →
      (∀ tree ∈ trees, tree.role ≠ .line) →
        (walkAll setting deeper namesFirst trees).Avoids hazard fun outcomes =>
          (outcomes.map (·.meaning)).map Meaning.role = rolesIn namesFirst trees
  | [], _, _ => .pure rfl
  | tree :: trees, hsound, hlines => by
    obtain ⟨hfirst, hothers⟩ := List.forall_mem_append.mp hsound
    obtain ⟨hline, hlines⟩ := List.forall_mem_cons.mp hlines
    have hwalk : ((bareName namesFirst tree).elim (walk setting deeper tree) pure).Avoids hazard
        fun outcome => outcome.meaning.role =
          if (bareName namesFirst tree).isSome then .mark .identifier else tree.role := by
      cases hname : bareName namesFirst tree with
      | some outcome => exact .pure (bareName_cases hname)
      | none => exact walk_avoids hquiet tree hfirst hline
    apply Avoids.bind hwalk
    intro outcome houtcome
    apply Avoids.bind (walkAll_avoids hquiet false trees hothers hlines)
    intro outcomes houtcomes
    rw [rolesIn_false] at houtcomes
    refine .pure ?_
    rw [List.map_cons, List.map_cons, houtcomes, houtcome, rolesIn]

end

/-! ## Scripts -/

theorem line_safe (hquiet : Quiet hazard setting deeper) (site : Site) {children : List Tree}
    (hsound : ∀ t ∈ Tree.subtreesOf children, t.Sound hazard) (hshape : Shape .line children) :
    (line setting deeper site children).Safe hazard := by
  apply Avoids.bind (walkAll_avoids hquiet false children hsound (hshape.role_ne_line (by decide)))
  intro outcomes _
  apply Avoids.bind (.attempt (refuseNames_safe _ _))
  intro _ _
  exact .bind (decorate_safe hquiet site _ _) fun _ _ => .pure trivial

theorem lines_safe (hquiet : Quiet hazard setting deeper) {trees : List Tree}
    (hsound : ∀ t ∈ Tree.subtreesOf trees, t.Sound hazard) (hshape : Shape .script trees) :
    (lines setting deeper trees).Safe hazard := by
  induction trees with
  | nil => exact .pure trivial
  | cons tree trees ih =>
    obtain ⟨⟨site, children, rfl⟩, hlines⟩ := List.forall_mem_cons.mp hshape
    obtain ⟨hfirst, hothers⟩ := List.forall_mem_append.mp hsound
    obtain ⟨⟨⟨hline, -⟩, -⟩, hinside⟩ := List.forall_mem_cons.mp hfirst
    apply Avoids.bind (line_safe hquiet site hinside hline)
    intro result _
    exact .bind (ih hothers hlines) fun results _ => .pure trivial

/-- The lines of a tree that a source has. -/
theorem lines_of_parse (hquiet : Quiet hazard setting deeper) {source : String} {tree : Tree}
    (hparse : parse source = .ok tree) (hsound : ∀ t ∈ tree.subtrees, t.Sound hazard) :
    (lines setting deeper tree.children).Safe hazard := by
  obtain ⟨site, children, rfl⟩ := parse_eq_script hparse
  obtain ⟨⟨⟨hshape, -⟩, -⟩, hinside⟩ := List.forall_mem_cons.mp hsound
  exact lines_safe hquiet hinside hshape

theorem parse_safe (source : String) : (parse source).Safe hazard := by
  unfold parse
  dsimp only
  split
  · exact .fail rfl
  · exact .fail rfl
  · exact .fail rfl
  · exact .ok trivial

theorem script_safe (hquiet : Quiet hazard setting deeper) {source : String}
    (hsound : ∀ tree, parse source = .ok tree → ∀ t ∈ tree.subtrees, t.Sound hazard) :
    (script setting deeper source).Safe hazard := by
  unfold script
  cases hparse : parse source with
  | error failure =>
    have hsafe : (parse source).Safe hazard := parse_safe source
    rw [hparse] at hsafe
    cases hsafe with
    | failed hfailure => exact fun _ => .failed hfailure
  | ok tree =>
    have htree : Avoids hazard (· = tree) (ofAttempt (.ok tree)) := .attempt (.ok rfl)
    apply htree.bind
    rintro _ rfl
    exact .bind (lines_of_parse hquiet hparse (hsound _ hparse)) fun results _ => .pure trivial

/-! ## Scripts inside of scripts -/

/-- Runs no scripts but those of a list, whose endings are known. -/
noncomputable def answering (nested : List Start) (inside : Start → Ending) : Deeper :=
  fun source memory =>
    open Classical in
    if ⟨source, memory⟩ ∈ nested then (inside ⟨source, memory⟩).answer else (.ok .none, memory)

theorem answers_answering (nested : List Start) (inside : Start → Ending) :
    Answers (answering nested inside) nested inside := fun _ hinner => if_pos hinner

theorem answering_safe {nested : List Start} {inside : Start → Ending}
    (h : ∀ inner ∈ nested, (inside inner).1.Safe hazard) (source : String) :
    (answering nested inside source).Safe hazard := by
  intro memory
  unfold answering
  split
  case isTrue hnested =>
    have hinner := h _ hnested
    unfold Ending.answer
    generalize (inside ⟨source, memory⟩).1 = result at hinner
    cases hinner with
    | ok _ => exact .ok trivial
    | failed hfailure => exact .failed hfailure
  case isFalse => exact .ok trivial

/-- A script is safe if those are that it starts. -/
theorem ending_safe (hquiet : setting.Quiet hazard) (start : Start) {ending : Ending}
    (hsound : ∀ tree, parse start.source = .ok tree → ∀ t ∈ tree.subtrees, t.Sound hazard)
    {nested : List Start} {inside : Start → Ending}
    (hsettled : ∀ deeper, Answers deeper nested inside →
      script setting deeper start.source start.memory = ending)
    (hnested : ∀ inner ∈ nested, (inside inner).1.Safe hazard) : ending.1.Safe hazard := by
  rw [← hsettled _ (answers_answering nested inside)]
  exact script_safe ⟨hquiet, answering_safe hnested⟩ hsound start.memory

/--
Where no hazard comes from elsewhere, none comes from the scripts inside of a script either: each of
them finishes, and so none ever runs out of levels.
-/
theorem evaluate_safe (hquiet : setting.Quiet hazard)
    (hsound : ∀ source tree, parse source = .ok tree → ∀ t ∈ tree.subtrees, t.Sound hazard)
    (source : String) : (evaluate setting source).Safe hazard := by
  have hfinishes : ∀ start ending, Finishes setting start ending → ending.1.Safe hazard := by
    intro start ending h
    induction h with
    | script _ _ _ _ hsettled ih => exact ending_safe hquiet _ (hsound _) hsettled ih
  exact fun memory => hfinishes ⟨source, memory⟩ _ (finishes_evaluate setting ⟨source, memory⟩)

end Evaluation

end Calculator
