import Calculator.Proofs.Evaluation.Arrival
import Calculator.Proofs.Evaluation.Assignment

/-!
# What a walk leaves as it was

A variable keeps its value as long as no task is done that writes it: no assignment to its name, and
no call of something that works on the same variables and changes it. Functions that scripts define
have variables of their own.
-/

namespace Calculator

open Grammar Evaluation

/-! ## What a walk does -/

/-- Extensions, and functions that run scripts, work on the variables of the caller. -/
def Setting.Shares (setting : Setting) (name : String) : Prop :=
  (∃ host ∈ setting.host, (host.function? name).isSome) ∨
    ∃ function, setting.functions.find? name = some function ∧ function.behaviour.runsScripts

section

variable (setting : Setting) (deeper : Deeper)

/-- A task, and where and on which memory it is done. -/
structure Doing where
  site : Site
  task : Task
  memory : Memory

/-- Doing this assigns the variable, or runs something that may change it and does. -/
def Doing.Writes (name : String) (doing : Doing) : Prop :=
  match doing.task with
  | .finish _ => False
  | .assign other _ | .assignIndexed other _ _ => other = name
  | .call function arguments => setting.Shares function ∧
    (callName setting deeper doing.site function arguments doing.memory).2.bindings.get? name ≠
      doing.memory.bindings.get? name

/-- What is done while a tree is walked. -/
inductive Does : Tree → Memory → Doing → Prop
  | own {rule : Rule} {site : Site} {children : List Tree} {outcomes : List Outcome} {task : Task}
      {memory after : Memory}
      (usual : rule ≠ .ternary ∧ rule ≠ .definition ∧ rule ≠ .decorator) (slip : slip? rule = none)
      (walked : walkAll setting deeper (startsWithName rule) children memory =
        (.ok outcomes, after))
      (names : checkNames rule children outcomes = .ok ())
      (left : Evaluation.task site rule children outcomes = .ok task) :
      Does (.node rule site children) memory ⟨site, task, after⟩
  | inside {i : Nat} {tree child : Tree} {memory between : Memory} {doing : Doing}
      (next : into setting deeper i memory tree = some (child, between))
      (done : Does child between doing) : Does tree memory doing

/-- What is done before the walk of a tree arrives at a place in it. -/
inductive DoesBefore : Place → Tree → Memory → Doing → Prop
  | beside {i j : Nat} {place : Place} {tree child : Tree} {memory between : Memory} {doing : Doing}
      (earlier : j < i) (next : into setting deeper j memory tree = some (child, between))
      (done : Does setting deeper child between doing) : DoesBefore (i :: place) tree memory doing
  | inside {i : Nat} {place : Place} {tree child : Tree} {memory between : Memory} {doing : Doing}
      (next : into setting deeper i memory tree = some (child, between))
      (done : DoesBefore place child between doing) : DoesBefore (i :: place) tree memory doing

end

namespace Evaluation

variable {setting : Setting} {deeper : Deeper} {name : String} {site : Site}
  {memory between : Memory} {tree child : Tree} {trees : List Tree} {i : Nat}

/-! ## What tasks leave alone -/

theorem ofAttempt_snd {α : Type} (attempt : Attempt α) (memory : Memory) :
    ((ofAttempt attempt : Evaluation α) memory).2 = memory := by
  cases attempt <;> rfl

theorem helpFor_snd (call : Call) (memory : Memory) : (helpFor setting call memory).2 = memory := by
  unfold helpFor
  rw [get_bind_apply]
  cases call.first? "function_name" with
  | none => rfl
  | some value =>
    dsimp only
    cases Help.describe setting memory value.text <;> rfl

/-- Functions of the table that run no scripts have nothing to do with variables. -/
theorem bindings_behave {behaviour : Behaviour} (h : behaviour.runsScripts = false) (call : Call)
    (memory : Memory) :
    (behave setting deeper call behaviour memory).2.bindings = memory.bindings := by
  cases behaviour with
  | compute f => exact congrArg Memory.bindings (ofAttempt_snd _ memory)
  | consult f => exact congrArg Memory.bindings (ofAttempt_snd _ memory)
  | draw f =>
    change ((ofAttempt _ : Evaluation Value) _).2.bindings = _
    rw [ofAttempt_snd]
  | help => exact congrArg Memory.bindings (helpFor_snd call memory)
  | run => cases h
  | runFile => cases h

/-- A call that shares no variables leaves them as they are. -/
theorem bindings_callName {function : String} (h : ¬setting.Shares function) (site : Site)
    (arguments : List Value) (memory : Memory) :
    (callName setting deeper site function arguments memory).2.bindings = memory.bindings := by
  obtain ⟨hhosts, hruns⟩ := not_or.mp h
  have hhost : (setting.host.filter fun host => (host.function? function).isSome) = none := by
    rw [Option.filter_eq_none_iff]
    exact fun host hmem hfunction => hhosts ⟨host, hmem, hfunction⟩
  unfold callName
  rw [get_bind_apply, hhost]
  cases hfind : setting.functions.find? function with
  | some found =>
    have hquiet : found.behaviour.runsScripts = false := by
      by_contra hfound
      exact hruns ⟨found, hfind, by simpa using hfound⟩
    change (callFunction setting deeper site found arguments memory).2.bindings = _
    unfold callFunction
    cases found.signature.bind site arguments with
    | error failure => rfl
    | ok bound => exact bindings_behave hquiet _ memory
  | none =>
    cases memory.definitions.lookup function with
    | none => rfl
    | some definition =>
      change (callDefinition setting deeper site definition arguments memory).2.bindings = _
      rw [callDefinition_apply]
      split
      · rfl
      · split <;> rfl

theorem assign_get? (site : Site) {other : String} (h : other ≠ name) (value : Value)
    (memory : Memory) :
    (assign site other value memory).2.bindings.get? name = memory.bindings.get? name := by
  unfold assign
  split
  · rfl
  · exact Named.lookup_put_of_ne h.symm _ value

theorem assignIndexed_get? (site : Site) {other : String} (h : other ≠ name) (index value : Value)
    (memory : Memory) :
    (assignIndexed site other index value memory).2.bindings.get? name =
      memory.bindings.get? name := by
  rw [assignIndexed_apply]
  split
  · rfl
  · split
    · rfl
    · split
      · exact Named.lookup_put_of_ne h.symm _ _
      · rfl

theorem perform_get? {task : Task} (h : ¬Doing.Writes setting deeper name ⟨site, task, memory⟩)
    (format : Format) :
    (perform setting deeper site format task memory).2.bindings.get? name =
      memory.bindings.get? name := by
  have hdone {α β : Type} {e : Evaluation α} {f : α → β} :
      ((e >>= fun a => pure (f a)) memory).2 = (e memory).2 := by
    rw [bind_pure_comp, map_apply]
  cases task with
  | finish outcome => rfl
  | assign other value =>
    rw [perform, hdone]
    exact assign_get? site h value memory
  | assignIndexed other index value =>
    rw [perform, hdone]
    exact assignIndexed_get? site h index value memory
  | call function arguments =>
    rw [perform, hdone]
    by_cases hshares : setting.Shares function
    · exact not_not.mp fun hne => h ⟨hshares, hne⟩
    · rw [bindings_callName hshares]

/-! ## What walks leave alone -/

/-- Nothing that is done while the tree is walked writes the variable. -/
def Spares (setting : Setting) (deeper : Deeper) (name : String) (tree : Tree) (memory : Memory) :
    Prop := ∀ doing, Does setting deeper tree memory doing → ¬doing.Writes setting deeper name

theorem Spares.inside (h : Spares setting deeper name tree memory)
    (hinto : into setting deeper i memory tree = some (child, between)) :
    Spares setting deeper name child between := fun doing hdoes => h doing (.inside hinto hdoes)

theorem leaf_snd (kind : Terminal) (site : Site) (memory : Memory) :
    (leaf kind site memory).2 = memory := by
  unfold leaf
  split
  · rfl
  · exact ofAttempt_snd _ memory

theorem bindings_define (site : Site) (children : List Tree) (memory : Memory) :
    (define site children memory).2.bindings = memory.bindings := by
  unfold define
  cases children.head? with
  | none => rfl
  | some head => cases children.getLast? <;> rfl

theorem test_snd (condition : Tree) (memory : Memory) :
    (test setting deeper condition memory).2 = (walk setting deeper condition memory).2 := by
  rw [test, bind_apply]
  rcases walk setting deeper condition memory with ⟨_ | outcome, after⟩
  · rfl
  · exact ofAttempt_snd _ after

/-- A node of the usual kind writes what those below it write, and what its own task does. -/
theorem node_get? {rule : Rule} {children : List Tree} {below : Evaluation (List Outcome)}
    (hbelow : slip? rule = none →
      (below memory).2.bindings.get? name = memory.bindings.get? name)
    (hown : slip? rule = none → ∀ outcomes after task, below memory = (.ok outcomes, after) →
      checkNames rule children outcomes = .ok () →
      Evaluation.task site rule children outcomes = .ok task →
      ¬Doing.Writes setting deeper name ⟨site, task, after⟩) :
    (node setting deeper site rule children below memory).2.bindings.get? name =
      memory.bindings.get? name := by
  unfold node
  cases hslip : slip? rule with
  | some slip => rfl
  | none =>
    specialize hbelow hslip
    specialize hown hslip
    dsimp only
    rw [bind_apply]
    rcases hwalk : below memory with ⟨_ | outcomes, after⟩ <;> rw [hwalk] at hbelow
    · exact hbelow
    rw [← hbelow]
    dsimp only
    rw [bind_apply]
    cases hnames : checkNames rule children outcomes with
    | error failure => rfl
    | ok _ =>
      change (combine setting deeper site rule children outcomes after).2.bindings.get? name = _
      rw [combine, bind_apply]
      cases htask : Evaluation.task site rule children outcomes with
      | error failure => rfl
      | ok task => exact perform_get? (hown outcomes after task hwalk hnames htask) _

/-- A name that is there to be written to is not read, and leaves everything as it is. -/
theorem first_get? {namesFirst : Bool} (h : bareName namesFirst tree = none →
      (walk setting deeper tree memory).2.bindings.get? name = memory.bindings.get? name) :
    ((bareName namesFirst tree).elim (walk setting deeper tree) pure memory).2.bindings.get? name =
      memory.bindings.get? name := by
  cases hname : bareName namesFirst tree with
  | some outcome => rfl
  | none => exact h hname

mutual

theorem walk_get? : (tree : Tree) → (memory : Memory) → Spares setting deeper name tree memory →
    (walk setting deeper tree memory).2.bindings.get? name = memory.bindings.get? name
  | .leaf kind site, memory, _ => by
    rw [walk, leaf_snd]
  | .node rule site children, memory, h => by
    by_cases hternary : rule = .ternary
    · subst hternary
      exact walkTernary_get? site children memory fun _ _ _ hinto => h.inside hinto
    by_cases hdefinition : rule = .definition
    · subst hdefinition
      rw [walk, map_apply, bindings_define]
    by_cases hdecorator : rule = .decorator
    · subst hdecorator
      rw [walk, ofAttempt_snd]
    have husual := And.intro hternary (And.intro hdefinition hdecorator)
    rw [walk_node _ _ hternary hdefinition hdecorator]
    apply node_get?
    · intro hslip
      exact walkAll_get? _ children memory fun i child between hinto =>
        h.inside (by rw [into_node husual hslip, hinto])
    · intro hslip outcomes after task hwalk hnames htask
      exact h _ (.own husual hslip hwalk hnames htask)

theorem walkTernary_get? (site : Site) : (children : List Tree) → (memory : Memory) →
    (∀ i child between, intoBranch setting deeper i memory children = some (child, between) →
      Spares setting deeper name child between) →
    (walkTernary setting deeper site children memory).2.bindings.get? name =
      memory.bindings.get? name
  | [condition, question, yes, colon, no], memory, h => by
    have hcondition := walk_get? condition memory (h 0 condition memory rfl)
    rw [← test_snd] at hcondition
    rw [walkTernary_apply]
    rcases htest : test setting deeper condition memory with ⟨_ | holds, after⟩ <;>
      rw [htest] at hcondition
    · exact hcondition
    · rw [← hcondition]
      cases holds with
      | true => exact walk_get? yes after (h 2 yes after (by simp [intoBranch, htest]))
      | false => exact walk_get? no after (h 4 no after (by simp [intoBranch, htest]))
  | [], _, _ | [_], _, _ | [_, _], _, _ | [_, _, _], _, _ | [_, _, _, _], _, _
  | _ :: _ :: _ :: _ :: _ :: _ :: _, _, _ => rfl

theorem walkAll_get? (namesFirst : Bool) : (trees : List Tree) → (memory : Memory) →
    (∀ i child between, intoChild setting deeper namesFirst i trees memory = some (child, between) →
      Spares setting deeper name child between) →
    (walkAll setting deeper namesFirst trees memory).2.bindings.get? name =
      memory.bindings.get? name
  | [], _, _ => rfl
  | tree :: trees, memory, h => by
    have hfirst := first_get? fun hname =>
      walk_get? tree memory (h 0 tree memory (by rw [intoChild, hname]))
    rw [walkAll, bind_apply]
    rcases hwalk : (bareName namesFirst tree).elim (walk setting deeper tree) pure memory with
      ⟨_ | outcome, between⟩ <;> rw [hwalk] at hfirst
    · exact hfirst
    · dsimp only
      rw [← hfirst, bind_pure_comp, map_apply]
      exact walkAll_get? false trees between fun i child middle hinto =>
        h (i + 1) child middle (by rw [intoChild, hwalk]; exact hinto)

end

/-! ## On the way to a place -/

theorem intoChild_get? {namesFirst : Bool}
    (h : intoChild setting deeper namesFirst i trees memory = some (child, between))
    (hearlier : ∀ j < i, ∀ other middle,
      intoChild setting deeper namesFirst j trees memory = some (other, middle) →
        Spares setting deeper name other middle) :
    between.bindings.get? name = memory.bindings.get? name := by
  induction i generalizing trees memory namesFirst with
  | zero =>
    obtain ⟨others, rfl, -, rfl⟩ := intoChild_zero h
    rfl
  | succ i ih =>
    obtain ⟨tree, others, outcome, middle, rfl, hwalk, h⟩ := intoChild_succ h
    have hrest := ih h fun j hj other after hother =>
      hearlier (j + 1) (Nat.succ_lt_succ hj) other after (by rw [intoChild, hwalk]; exact hother)
    have hfirst := first_get? fun hname =>
      walk_get? tree memory (hearlier 0 (Nat.succ_pos i) tree memory (by rw [intoChild, hname]))
    rw [hwalk] at hfirst
    exact hrest.trans hfirst

theorem into_get? (h : into setting deeper i memory tree = some (child, between))
    (hearlier : ∀ j < i, ∀ other middle, into setting deeper j memory tree = some (other, middle) →
      Spares setting deeper name other middle) :
    between.bindings.get? name = memory.bindings.get? name := by
  obtain ⟨rule, site, trees, rfl, ⟨rfl, hinto⟩ | ⟨husual, hslip, hinto⟩⟩ := into_cases h
  case inl =>
    obtain ⟨condition, question, yes, colon, no, rfl, hcases⟩ := intoBranch_cases hinto
    have hcondition (hpos : 0 < i) : (test setting deeper condition memory).2.bindings.get? name =
        memory.bindings.get? name := by
      rw [test_snd]
      exact walk_get? condition memory (hearlier 0 hpos condition memory rfl)
    rcases hcases with ⟨rfl, rfl, rfl⟩ | ⟨rfl, rfl, htest⟩ | ⟨rfl, rfl, htest⟩
    · rfl
    · rw [← hcondition (by decide), htest]
    · rw [← hcondition (by decide), htest]
  case inr =>
    refine intoChild_get? hinto fun j hj other middle hother => hearlier j hj other middle ?_
    rw [into_node husual hslip, hother]

/-- A variable that nothing writes before the walk arrives is still what it was. -/
theorem arrive_get? {place : Place} {target : Tree}
    (h : arrive setting deeper place tree memory = some (target, between))
    (hbefore : ∀ doing, DoesBefore setting deeper place tree memory doing →
      ¬doing.Writes setting deeper name) :
    between.bindings.get? name = memory.bindings.get? name := by
  induction place generalizing tree memory with
  | nil =>
    cases h
    rfl
  | cons i place ih =>
    obtain ⟨child, middle, hinto, h⟩ := arrive_cons h
    rw [ih h fun doing hdoing => hbefore doing (.inside hinto hdoing)]
    exact into_get? hinto fun j hj other after hother doing hdoing =>
      hbefore doing (.beside hj hother hdoing)

end Evaluation

end Calculator
