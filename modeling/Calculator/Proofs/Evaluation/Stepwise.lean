import Calculator.Evaluation.Script
import Calculator.Proofs.Evaluation.Deed

/-!
# Scripts, step by step

Every script is put together from a few kinds of steps. What holds of each of them, and still holds
when one comes after another, holds of every script. The limit and the way to run scripts inside of
scripts are left open.
-/

namespace Calculator

open Grammar Evaluation

/-- The function runs text as a script. -/
def Behaviour.runsScripts : Behaviour → Bool
  | .run | .runFile => true
  | _ => false

/-- Another limit in an otherwise equal setting. -/
def Setting.withLimit (setting : Setting) (limit : Nat) : Setting :=
  { setting with maxDepth := limit }

@[simp] theorem Setting.withLimit_functions (setting : Setting) (limit : Nat) :
    (setting.withLimit limit).functions = setting.functions := rfl

@[simp] theorem Setting.withLimit_decorators (setting : Setting) (limit : Nat) :
    (setting.withLimit limit).decorators = setting.decorators := rfl

@[simp] theorem Setting.withLimit_host (setting : Setting) (limit : Nat) :
    (setting.withLimit limit).host = setting.host := rfl

@[simp] theorem Setting.withLimit_world (setting : Setting) (limit : Nat) :
    (setting.withLimit limit).world = setting.world := rfl

@[simp] theorem Setting.withLimit_maxDepth (setting : Setting) (limit : Nat) :
    (setting.withLimit limit).maxDepth = limit := rfl

@[simp] theorem Setting.withLimit_self (setting : Setting) :
    setting.withLimit setting.maxDepth = setting := rfl

/-- A computation that changes the memory in steps, and only by deeds that it may do. -/
inductive Stepwise (setting : Setting) (may : Deed → Prop) :
    {α : Type} → (Nat → Deeper → Evaluation α) → Prop
  | attempt {α : Type} (attempt : Attempt α) : Stepwise setting may fun _ _ => ofAttempt attempt
  | bind {α β : Type} {e : Nat → Deeper → Evaluation α} {f : α → Nat → Deeper → Evaluation β}
      (first : Stepwise setting may e) (next : ∀ a, Stepwise setting may (f a)) :
      Stepwise setting may fun limit deeper => e limit deeper >>= fun a => f a limit deeper
  /-- Looks at the variables and the functions of the script. -/
  | look {α : Type} {f : Memory → Nat → Deeper → Evaluation α}
      (blind : ∀ memory memory', memory.bindings = memory'.bindings →
        memory.definitions = memory'.definitions → f memory = f memory')
      (next : ∀ memory, Stepwise setting may (f memory)) :
      Stepwise setting may fun limit deeper => get >>= fun memory => f memory limit deeper
  | draw : Stepwise setting may fun _ _ => draw
  | note (event : Event) : Stepwise setting may fun _ _ => note event
  | put (name : String) (value : Value) (allowed : may (.assigns name)) :
      Stepwise setting may fun _ _ =>
        modify fun memory => { memory with bindings := memory.bindings.put name value }
  | define (definition : Definition) (allowed : may (.defines definition.name)) :
      Stepwise setting may fun _ _ =>
        modify fun memory => { memory with definitions := memory.definitions.put definition }
  | visit {α : Type} (visit : Visit α) (hosted : setting.host.isSome) :
      Stepwise setting may fun _ _ => ofVisit visit
  | nested {name : String} {function : Function} (allowed : may (.calls name))
      (found : setting.functions.find? name = some function)
      (runs : function.behaviour.runsScripts) (site : Site) (source : String) :
      Stepwise setting may fun limit deeper =>
        runNested (setting.withLimit limit) deeper site source
  | call (site : Site) (definition : Definition) (arguments : List Value) :
      Stepwise setting may fun limit deeper =>
        callDefinition (setting.withLimit limit) deeper site definition arguments

namespace Stepwise

variable {setting : Setting} {may : Deed → Prop} {α β : Type}

theorem pure (a : α) : Stepwise setting may fun _ _ => (Pure.pure a : Evaluation α) :=
  .attempt (.ok a)

theorem fail (site : Site) (cause : Cause) :
    Stepwise setting may fun _ _ => (Evaluation.fail site cause : Evaluation α) :=
  .attempt (.error (.located site cause))

theorem map {e : Nat → Deeper → Evaluation α} (f : α → β) (h : Stepwise setting may e) :
    Stepwise setting may fun limit deeper => f <$> e limit deeper := by
  simp only [← bind_pure_comp]
  exact h.bind fun a => .pure (f a)

/-- What comes after an attempt may rely on its success. -/
theorem attempt_bind {attempt : Attempt α} {f : α → Nat → Deeper → Evaluation β}
    (next : ∀ a, attempt = .ok a → Stepwise setting may (f a)) :
    Stepwise setting may fun limit deeper => ofAttempt attempt >>= fun a => f a limit deeper := by
  cases attempt with
  | ok a => exact next a rfl
  | error failure => exact .attempt (.error failure)

/-! ## Variables and functions -/

theorem valueOf (name : String) :
    Stepwise setting may fun _ _ => Evaluation.valueOf name := by
  apply Stepwise.look
  case blind =>
    intro memory memory' hbindings _
    simp only [Memory.valueOf?, hbindings]
  case next =>
    intro memory
    exact .pure _

theorem leaf (kind : Terminal) (site : Site) :
    Stepwise setting may fun _ _ => Evaluation.leaf kind site := by
  cases kind
  case identifier => exact .map _ (.valueOf site.text)
  all_goals
    simp only [Evaluation.leaf]
    exact .attempt _

theorem assign {name : String} (allowed : may (.assigns name)) (site : Site) (v : Value) :
    Stepwise setting may fun _ _ => Evaluation.assign site name v := by
  unfold Evaluation.assign
  by_cases h : isConstant name
  · simp only [h, if_true]
    exact .fail site _
  · simp only [h]
    exact .put name v allowed

theorem assignIndexed {name : String} (allowed : may (.assigns name)) (site : Site)
    (index v : Value) :
    Stepwise setting may fun _ _ => Evaluation.assignIndexed site name index v := by
  unfold Evaluation.assignIndexed
  by_cases h : isConstant name
  · simp only [h, if_true]
    exact .fail site _
  · simp only [h]
    apply Stepwise.look
    case blind =>
      intro memory memory' hbindings _
      simp only [hbindings]
    case next =>
      intro memory
      cases hc : memory.bindings.get? name with
      | none => exact .fail site _
      | some container => exact .attempt_bind fun changed _ => .assign allowed site changed

theorem defineFrom {children : List Tree} (allowed : may (.defines (firstName children)))
    (site : Site) : Stepwise setting may fun _ _ => Evaluation.define site children := by
  unfold Evaluation.define
  cases hhead : children.head? with
  | none => exact .fail site _
  | some head =>
    cases hbody : children.getLast? with
    | none => exact .fail site _
    | some body =>
      have hname : firstName children = head.input := by simp [firstName, hhead]
      rw [hname] at allowed
      exact .bind (.define _ allowed) fun _ => .bind (.note _) fun _ => .pure _

/-! ## Calls -/

theorem help_text_withLimit (setting : Setting) (limit : Nat) (memory : Memory) :
    Help.text (setting.withLimit limit) memory = Help.text setting memory := rfl

theorem help_describe_withLimit (setting : Setting) (limit : Nat) (memory : Memory)
    (name : String) :
    Help.describe (setting.withLimit limit) memory name = Help.describe setting memory name := rfl

theorem helpFor (call : Call) :
    Stepwise setting may fun limit _ => Evaluation.helpFor (setting.withLimit limit) call := by
  simp only [Evaluation.helpFor, help_text_withLimit, help_describe_withLimit]
  apply Stepwise.look
  case blind =>
    intro memory memory' hbindings hdefinitions
    simp only [Help.text, Help.describe, Help.describeFunction, hbindings, hdefinitions]
  case next =>
    intro memory
    cases call.first? "function_name" with
    | none => exact .pure _
    | some value =>
      cases hd : Help.describe setting memory value.text with
      | none => simp only [hd]; exact .fail call.site _
      | some text => simp only [hd]; exact .pure _

theorem behave (call : Call) (behaviour : Behaviour)
    (h : behaviour.runsScripts → ∃ name function, may (.calls name) ∧
      setting.functions.find? name = some function ∧ function.behaviour.runsScripts) :
    Stepwise setting may fun limit deeper =>
      Evaluation.behave (setting.withLimit limit) deeper call behaviour := by
  cases behaviour with
  | compute f => exact .attempt _
  | consult f => exact .attempt (f setting.world call)
  | draw f => exact .bind .draw fun drawn => .attempt (f (setting.world.chance drawn) call)
  | help => exact .helpFor call
  | run =>
    obtain ⟨name, function, allowed, found, runs⟩ := h rfl
    exact .attempt_bind fun source _ => .nested allowed found runs call.site source.text
  | runFile =>
    obtain ⟨name, function, allowed, found, runs⟩ := h rfl
    simp only [Evaluation.behave, Setting.withLimit_world]
    apply Stepwise.attempt_bind
    intro path _
    exact .attempt_bind fun source _ => .nested allowed found runs call.site source

theorem callFunction {name : String} {function : Function} (allowed : may (.calls name))
    (found : setting.functions.find? name = some function) (site : Site)
    (arguments : List Value) :
    Stepwise setting may fun limit deeper =>
      Evaluation.callFunction (setting.withLimit limit) deeper site function arguments := by
  unfold Evaluation.callFunction
  apply Stepwise.attempt_bind
  intro bound _
  apply Stepwise.behave
  intro runs
  exact ⟨name, function, allowed, found, runs⟩

theorem callName {name : String} (allowed : may (.calls name)) (site : Site)
    (arguments : List Value) :
    Stepwise setting may fun limit deeper =>
      Evaluation.callName (setting.withLimit limit) deeper site name arguments := by
  simp only [Evaluation.callName, Setting.withLimit_host, Setting.withLimit_functions]
  apply Stepwise.look
  case blind =>
    intro memory memory' _ hdefinitions
    simp only [hdefinitions]
  case next =>
    intro memory
    cases hhost : setting.host.filter fun host => (host.function? name).isSome with
    | some host =>
      have hosted : setting.host.isSome :=
        Option.isSome_of_isSome_filter _ _ (Option.isSome_of_eq_some hhost)
      exact .visit _ hosted
    | none =>
      cases hf : setting.functions.find? name with
      | some function => exact .callFunction allowed hf site arguments
      | none =>
        cases hd : memory.definitions.lookup name with
        | some definition => exact .call site definition arguments
        | none => exact .fail site _

/-! ## Trees -/

theorem perform (site : Site) (format : Format) (task : Task)
    (allowed : ∀ deed ∈ task.deed?, may deed) :
    Stepwise setting may fun limit deeper =>
      Evaluation.perform (setting.withLimit limit) deeper site format task := by
  cases task with
  | finish outcome => exact .pure _
  | assign name v => exact .bind (.assign (allowed _ rfl) site v) fun _ => .pure _
  | assignIndexed name index v =>
    exact .bind (.assignIndexed (allowed _ rfl) site index v) fun _ => .pure _
  | call name arguments => exact .bind (.callName (allowed _ rfl) site arguments) fun v => .pure _

theorem combine {site : Site} {rule : Rule} {children : List Tree}
    (allowed : ∀ deed ∈ (Grammar.Tree.node rule site children).deeds, may deed)
    (outcomes : List Outcome) :
    Stepwise setting may fun limit deeper =>
      Evaluation.combine (setting.withLimit limit) deeper site rule children outcomes := by
  apply Stepwise.attempt_bind
  intro task htask
  apply Stepwise.perform
  intro deed hdeed
  exact allowed deed (deed_of_task htask hdeed)

theorem node {site : Site} {rule : Rule} {children : List Tree}
    {below : Nat → Deeper → Evaluation (List Outcome)}
    (allowed : ∀ deed ∈ (Grammar.Tree.node rule site children).deeds, may deed)
    (h : Stepwise setting may below) :
    Stepwise setting may fun limit deeper =>
      Evaluation.node (setting.withLimit limit) deeper site rule children
        (below limit deeper) := by
  unfold Evaluation.node
  cases slip? rule with
  | some slip => exact .fail site _
  | none =>
    apply Stepwise.bind h
    intro outcomes
    exact .bind (.attempt _) fun _ => .combine allowed outcomes

mutual

theorem walk : (tree : Tree) → (∀ deed ∈ tree.deeds, may deed) →
    Stepwise setting may fun limit deeper =>
      Evaluation.walk (setting.withLimit limit) deeper tree
  | .leaf kind site, _ => .leaf kind site
  | .node rule site children, allowed => by
    by_cases hdefinition : rule = .definition
    · subst hdefinition
      exact .map _ (.defineFrom (allowed _ (by simp [Tree.deeds])) site)
    have inside : ∀ deed ∈ Tree.deedsOfAll children, may deed := fun deed h =>
      allowed deed (Tree.deedsOfAll_subset_deeds hdefinition site children h)
    by_cases hternary : rule = .ternary
    · subst hternary
      exact walkTernary site children inside
    by_cases hdecorator : rule = .decorator
    · subst hdecorator
      exact .attempt _
    simp only [walk_node _ _ hternary hdefinition hdecorator]
    exact .node allowed (walkAll _ children inside)

theorem walkTernary (site : Site) : (children : List Tree) →
    (∀ deed ∈ Tree.deedsOfAll children, may deed) →
    Stepwise setting may fun limit deeper =>
      Evaluation.walkTernary (setting.withLimit limit) deeper site children
  | [condition, _, yes, _, no], allowed => by
    have inside : ∀ tree ∈ [condition, yes, no], ∀ deed ∈ tree.deeds, may deed := by
      intro tree htree deed hdeed
      apply allowed
      simp only [List.mem_cons, List.not_mem_nil, or_false] at htree
      rcases htree with rfl | rfl | rfl <;> simp [Tree.deedsOfAll, hdeed]
    apply Stepwise.bind (walk condition (inside _ (by simp)))
    intro outcome
    apply Stepwise.attempt_bind
    intro holds _
    cases holds with
    | true => exact walk yes (inside _ (by simp))
    | false => exact walk no (inside _ (by simp))
  | [], _ | [_], _ | [_, _], _ | [_, _, _], _ | [_, _, _, _], _
  | _ :: _ :: _ :: _ :: _ :: _ :: _, _ => .attempt (Combination.misshapen site)

theorem walkAll (namesFirst : Bool) : (trees : List Tree) →
    (∀ deed ∈ Tree.deedsOfAll trees, may deed) →
    Stepwise setting may fun limit deeper =>
      Evaluation.walkAll (setting.withLimit limit) deeper namesFirst trees
  | [], _ => .pure []
  | tree :: trees, allowed => by
    have others := walkAll false trees fun deed h => allowed deed (by simp [Tree.deedsOfAll, h])
    simp only [Evaluation.walkAll]
    apply Stepwise.bind
    case first =>
      cases bareName namesFirst tree with
      | some outcome => exact .pure outcome
      | none => exact walk tree fun deed h => allowed deed (by simp [Tree.deedsOfAll, h])
    case next =>
      intro outcome
      exact .bind others fun outcomes => .pure _

end

/-! ## Scripts -/

theorem decorate (site : Site) (name : String) (value : Value) :
    Stepwise setting may fun limit _ =>
      Evaluation.decorate (setting.withLimit limit) site name value := by
  simp only [Evaluation.decorate, Setting.withLimit_host, Setting.withLimit_decorators]
  cases hhost : setting.host.filter fun host => (host.decorator? name).isSome with
  | none => cases isFixed name <;> exact .attempt _
  | some host =>
    have hosted : setting.host.isSome :=
      Option.isSome_of_isSome_filter _ _ (Option.isSome_of_eq_some hhost)
    cases isFixed name with
    | true => exact .attempt _
    | false => exact .visit _ hosted

theorem line (site : Site) {children : List Tree}
    (allowed : ∀ deed ∈ Tree.deedsOfAll children, may deed) :
    Stepwise setting may fun limit deeper =>
      Evaluation.line (setting.withLimit limit) deeper site children := by
  apply Stepwise.bind (.walkAll false children allowed)
  intro outcomes
  apply Stepwise.bind (.attempt _)
  intro _
  exact .bind (.decorate site _ _) fun text => .pure _

theorem lines : (trees : List Tree) → (∀ deed ∈ Tree.deedsOfAll trees, may deed) →
    Stepwise setting may fun limit deeper =>
      Evaluation.lines (setting.withLimit limit) deeper trees
  | [], _ => .pure []
  | .leaf kind site :: trees, _ => .fail _ _
  | .node rule site children :: trees, allowed => by
    have others := lines trees fun deed h => allowed deed (by simp [Tree.deedsOfAll, h])
    cases rule
    case line =>
      have inside : ∀ deed ∈ Tree.deedsOfAll children, may deed := by
        intro deed h
        exact allowed deed (by simp [Tree.deedsOfAll, Tree.deeds, h])
      exact .bind (.line site inside) fun result => .bind others fun results => .pure _
    all_goals exact .fail _ _

theorem script {source : String}
    (allowed : ∀ tree, parse source = .ok tree → ∀ deed ∈ tree.deeds, may deed) :
    Stepwise setting may fun limit deeper =>
      Evaluation.script (setting.withLimit limit) deeper source := by
  apply Stepwise.attempt_bind
  intro tree htree
  have inside : ∀ deed ∈ Tree.deedsOfAll tree.children, may deed := by
    obtain ⟨site, children, rfl⟩ := parse_eq_script htree
    exact allowed _ htree
  exact .bind (.lines tree.children inside) fun results => .pure _

/-- A script that may do anything. -/
theorem anyScript (setting : Setting) (source : String) :
    Stepwise setting (fun _ => True) fun limit deeper =>
      Evaluation.script (setting.withLimit limit) deeper source :=
  .script fun _ _ _ _ => trivial

end Stepwise

end Calculator
