import Calculator.Evaluation.Script
import Calculator.Proofs.Relocation.Combination
import Calculator.Proofs.Relocation.Function

/-!
# Lines at other places

Lines do the same wherever they stand, if the texts that are looked at stay as they are. Only the
places of their failures move with them, and not even all of those: what goes wrong in a function
body or in another script has its place there.
-/

namespace Calculator

open Grammar

/-- The same variables, and the same result up to the place of a failure. -/
def Visit.Carried {α : Type} (move : Site → Site) (first second : Visit α) : Prop :=
  ∀ bindings, (second bindings).2 = (first bindings).2 ∧
    Attempt.Carried move (first bindings).1 (second bindings).1

/-- From every memory the same memory, and the same result up to the place of a failure. -/
def Evaluation.Carried {α : Type} (move : Site → Site) (first second : Evaluation α) : Prop :=
  ∀ memory, (second memory).2 = (first memory).2 ∧
    Attempt.Carried move (first memory).1 (second memory).1

variable {move : Site → Site} {site : Site}

/-! ## Extensions -/

namespace Host

theorem finishWith_carried {α : Type} (host : Host) (label : String) (finish : Finish α) :
    Attempt.Carried move (host.finishWith site label finish)
      (host.finishWith (site.relocate move) label finish) := by
  cases finish with
  | returned a => exact .ok a
  | failed complaint => exact .fail site _
  | timedOut => exact .fail site _
  | raised failure => exact .refl _

theorem visit_carried {α : Type} (host : Host) (label : String) (work : Bindings → Reply α) :
    Visit.Carried move (host.visit site label work)
      (host.visit (site.relocate move) label work) := by
  intro bindings
  have hfinish : Attempt.Carried move (host.finishWith site label (work bindings).finish)
      (host.finishWith (site.relocate move) label (work bindings).finish) :=
    finishWith_carried _ _ _
  unfold visit
  dsimp only
  cases host.limit with
  | none => exact ⟨rfl, hfinish⟩
  | some limit =>
    dsimp only
    split
    · exact ⟨rfl, .fail site _⟩
    · generalize host.finishWith site label (work bindings).finish = first at hfinish
      generalize
        host.finishWith (site.relocate move) label (work bindings).finish = second at hfinish
      cases hfinish with
      | ok a => exact ⟨rfl, .ok a⟩
      | error h => exact ⟨rfl, .error h⟩

theorem visitFor_carried {α β : Type} (host : Host) (label : String) (work : Bindings → Reply α)
    {first second : α → Attempt β} (h : ∀ a, Attempt.Carried move (first a) (second a)) :
    Visit.Carried move (host.visitFor site label work first)
      (host.visitFor (site.relocate move) label work second) := by
  have hvisit : Visit.Carried move (host.visit site label work)
      (host.visit (site.relocate move) label work) := visit_carried host label work
  intro bindings
  obtain ⟨hafter, hresult⟩ := hvisit bindings
  exact ⟨hafter, hresult.bind h⟩

theorem valueOf_carried (name : String) (plain : Plain) :
    Attempt.Carried move (valueOf site name plain) (valueOf (site.relocate move) name plain) := by
  unfold valueOf
  split
  · exact .ok _
  · exact .fail site _

theorem callFunction_carried (host : Host) (name : String) (arguments : List Value) :
    Visit.Carried move (host.callFunction site name arguments)
      (host.callFunction (site.relocate move) name arguments) := by
  intro bindings
  unfold callFunction
  cases host.function? name with
  | none => exact ⟨rfl, .fail site _⟩
  | some function =>
    exact visitFor_carried host _ (function arguments) (valueOf_carried name) bindings

theorem callDecorator_carried (host : Host) (name : String) (value : Value) :
    Visit.Carried move (host.callDecorator site name value)
      (host.callDecorator (site.relocate move) name value) := by
  intro bindings
  unfold callDecorator
  cases host.decorator? name with
  | none => exact ⟨rfl, .fail site _⟩
  | some decorator =>
    exact visitFor_carried host _ (decorator value) (fun _ => .refl _) bindings

end Host

namespace Evaluation.Carried

variable {α β : Type}

/-! ## Computations -/

theorem refl (e : Evaluation α) : Carried move e e := fun _ => ⟨rfl, .refl _⟩

theorem attempt {first second : Attempt α} (h : Attempt.Carried move first second) :
    Carried move (ofAttempt first) (ofAttempt second) := by
  cases h with
  | ok a => exact .refl _
  | error h => exact fun _ => ⟨rfl, .error h⟩

theorem relocated {first second : Attempt α} (h : second = first.relocate move) :
    Carried move (ofAttempt first) (ofAttempt second) := .attempt (.of_relocate h)

theorem fail (site : Site) (cause : Cause) :
    Carried move (Evaluation.fail site cause : Evaluation α)
      (Evaluation.fail (site.relocate move) cause) :=
  fun _ => ⟨rfl, .fail site cause⟩

theorem bind {first second : Evaluation α} {f g : α → Evaluation β}
    (h : Carried move first second) (hnext : ∀ a, Carried move (f a) (g a)) :
    Carried move (first >>= f) (second >>= g) := by
  intro memory
  obtain ⟨hafter, hresult⟩ := h memory
  rw [bind_apply, bind_apply]
  rcases hfirst : first memory with ⟨result, after⟩
  rcases hsecond : second memory with ⟨result', after'⟩
  rw [hfirst, hsecond] at hafter hresult
  obtain rfl : after' = after := hafter
  cases hresult with
  | ok a => exact hnext a after'
  | error h => exact ⟨rfl, .error h⟩

theorem map {first second : Evaluation α} (f : α → β) (h : Carried move first second) :
    Carried move (f <$> first) (f <$> second) := by
  simp only [← bind_pure_comp]
  exact h.bind fun a => .refl _

theorem look {f g : Memory → Evaluation α} (h : ∀ memory, Carried move (f memory) (g memory)) :
    Carried move (get >>= f) (get >>= g) := fun memory => h memory memory

theorem visit {first second : Visit α} (h : Visit.Carried move first second) :
    Carried move (ofVisit first) (ofVisit second) := by
  intro memory
  obtain ⟨hafter, hresult⟩ := h memory.bindings
  rw [ofVisit_apply, ofVisit_apply]
  exact ⟨congrArg (fun bindings => { memory with bindings }) hafter, hresult⟩

theorem ite {c : Prop} [Decidable c] {a b a' b' : Evaluation α} (ha : Carried move a a')
    (hb : Carried move b b') : Carried move (if c then a else b) (if c then a' else b') := by
  split
  · exact ha
  · exact hb

/-! ## Variables and functions -/

theorem leaf (hsite : Keeps move site) (kind : Terminal) :
    Carried move (Evaluation.leaf kind site) (Evaluation.leaf kind (site.relocate move)) := by
  have htext : (site.relocate move).text = site.text := hsite
  unfold Evaluation.leaf
  split
  · rw [htext]
    exact .refl _
  · exact .relocated (literal_relocate hsite _)

theorem assign (name : String) (value : Value) :
    Carried move (Evaluation.assign site name value)
      (Evaluation.assign (site.relocate move) name value) :=
  ite (fail site _) (refl _)

theorem assignIndexed (name : String) (index value : Value) :
    Carried move (Evaluation.assignIndexed site name index value)
      (Evaluation.assignIndexed (site.relocate move) name index value) := by
  refine ite (fail site _) (look fun memory => ?_)
  cases memory.bindings.get? name with
  | none => exact fail site _
  | some container =>
    exact bind (relocated (updated_relocate container index value)) fun changed =>
      assign name changed

theorem define {children : List Tree}
    (htexts : ∀ child ∈ textsRead .definition children, Keeps move child.site)
    (hbelow : ∀ child ∈ children, KeepsTexts move child) :
    Carried move (Evaluation.define site children)
      (Evaluation.define (site.relocate move) (Tree.relocateAll move children)) := by
  have hparameters : parametersOf ((Tree.relocateAll move children).drop 2) =
      parametersOf (children.drop 2) := by
    rw [Tree.relocateAll_eq_map, ← List.map_drop, ← Tree.relocateAll_eq_map]
    exact parametersOf_relocate fun child hchild => hbelow child (List.mem_of_mem_drop hchild)
  unfold Evaluation.define
  rw [hparameters, head?_relocateAll, getLast?_relocateAll]
  cases hhead : children.head? with
  | none => exact fail site _
  | some head =>
    cases hlast : children.getLast? with
    | none => exact fail site _
    | some body =>
      have hname : (head.relocate move).input = head.input :=
        input_relocate (htexts head (by simp [textsRead, hhead]))
      have hbody : (body.relocate move).input = body.input :=
        input_relocate (htexts body (by simp [textsRead, hlast]))
      simp only [Option.map_some, hname, hbody]
      exact refl _

/-! ## Calls -/

section

variable {setting : Setting} {deeper : Deeper}

theorem runNested (source : String) :
    Carried move (Evaluation.runNested setting deeper site source)
      (Evaluation.runNested setting deeper (site.relocate move) source) :=
  look fun _ => ite (fail site _) (refl _)

theorem callDefinition (definition : Definition) (arguments : List Value) :
    Carried move (Evaluation.callDefinition setting deeper site definition arguments)
      (Evaluation.callDefinition setting deeper (site.relocate move) definition arguments) :=
  ite (fail site _) (look fun _ => ite (bind (refl _) fun _ => fail site _) (refl _))

theorem helpFor (call : Call) :
    Carried move (Evaluation.helpFor setting call)
      (Evaluation.helpFor setting (call.relocate move)) := by
  refine look fun memory => ?_
  rw [Call.relocate_first?]
  cases call.first? "function_name" with
  | none => exact refl _
  | some value =>
    dsimp only
    cases Help.describe setting memory value.text with
    | some text => exact refl _
    | none => exact fail call.site _

theorem behave {behaviour : Behaviour} (h : behaviour.Carries move) (call : Call) :
    Carried move (Evaluation.behave setting deeper call behaviour)
      (Evaluation.behave setting deeper (call.relocate move) behaviour) := by
  cases behaviour with
  | compute f => exact attempt (h call)
  | consult f => exact attempt (h setting.world call)
  | draw f => exact bind (refl _) fun drawn => attempt (h _ call)
  | help => exact helpFor call
  | run => exact bind (relocated (Call.relocate_required _)) fun source => runNested _
  | runFile =>
    exact bind (relocated (Call.relocate_required _)) fun path =>
      bind (relocated (setting.world.sourceFor_relocate _)) fun source => runNested _

theorem callName (h : setting.Carries move) (name : String) (arguments : List Value) :
    Carried move (Evaluation.callName setting deeper site name arguments)
      (Evaluation.callName setting deeper (site.relocate move) name arguments) := by
  refine look fun memory => ?_
  cases setting.host.filter fun host => (host.function? name).isSome with
  | some host => exact visit (host.callFunction_carried name arguments)
  | none =>
    cases hfound : setting.functions.find? name with
    | some function =>
      have hfunction := h.functions function (List.mem_of_find?_eq_some hfound)
      exact bind (relocated (function.signature.bind_relocate arguments)) fun bound =>
        behave hfunction ⟨site, function.signature, bound⟩
    | none =>
      cases memory.definitions.lookup name with
      | some definition => exact callDefinition definition arguments
      | none => exact fail site _

/-! ## Trees -/

theorem perform (h : setting.Carries move) (format : Format) (task : Task) :
    Carried move (Evaluation.perform setting deeper site format task)
      (Evaluation.perform setting deeper (site.relocate move) format task) := by
  cases task with
  | finish outcome => exact refl _
  | assign name value => exact bind (assign name value) fun _ => refl _
  | assignIndexed name index value => exact bind (assignIndexed name index value) fun _ => refl _
  | call name arguments => exact bind (callName h name arguments) fun value => refl _

theorem node (h : setting.Carries move) {rule : Rule} {children : List Tree}
    (htexts : ∀ child ∈ textsRead rule children, Keeps move child.site)
    {below below' : Evaluation (List Outcome)} (hbelow : Carried move below below') :
    Carried move (Evaluation.node setting deeper site rule children below)
      (Evaluation.node setting deeper (site.relocate move) rule (Tree.relocateAll move children)
        below') := by
  unfold Evaluation.node
  cases slip? rule with
  | some slip => exact fail site _
  | none =>
    refine bind hbelow fun outcomes => bind (relocated (checkNames_relocate htexts outcomes)) ?_
    intro _
    exact bind (relocated (task_relocate htexts outcomes)) fun task => perform h _ task

mutual

theorem walk (h : setting.Carries move) : ∀ {tree : Tree}, KeepsTexts move tree →
    Carried move (Evaluation.walk setting deeper tree)
      (Evaluation.walk setting deeper (tree.relocate move))
  | .leaf kind site, htree => leaf htree.leaf kind
  | .node rule site children, htree => by
    by_cases hternary : rule = .ternary
    · subst hternary
      exact walkTernary h site htree.below
    by_cases hdefinition : rule = .definition
    · subst hdefinition
      exact map _ (define htree.node htree.below)
    by_cases hdecorator : rule = .decorator
    · subst hdecorator
      exact relocated (decoratorOutcome_relocate htree.node)
    rw [Tree.relocate, walk_node _ _ hternary hdefinition hdecorator,
      walk_node _ _ hternary hdefinition hdecorator]
    exact node h htree.node (walkAll h _ htree.below)

theorem walkTernary (h : setting.Carries move) (site : Site) : ∀ {children : List Tree},
    (∀ child ∈ children, KeepsTexts move child) →
    Carried move (Evaluation.walkTernary setting deeper site children)
      (Evaluation.walkTernary setting deeper (site.relocate move) (Tree.relocateAll move children))
  | [condition, _, yes, _, no], hbelow => by
    simp only [List.forall_mem_cons] at hbelow
    obtain ⟨hfirst, -, hyes, -, hno, -⟩ := hbelow
    refine bind (walk h hfirst) fun outcome => ?_
    have hcondition : conditionOf (condition.relocate move).site outcome =
        (conditionOf condition.site outcome).relocate move := by
      rw [Tree.site_relocate, conditionOf_relocate]
    refine bind (relocated hcondition) fun holds => ?_
    cases holds with
    | true => exact walk h hyes
    | false => exact walk h hno
  | [], _ | [_], _ | [_, _], _ | [_, _, _], _ | [_, _, _, _], _
  | _ :: _ :: _ :: _ :: _ :: _ :: _, _ => relocated rfl

theorem walkAll (h : setting.Carries move) (namesFirst : Bool) : ∀ {trees : List Tree},
    (∀ tree ∈ trees, KeepsTexts move tree) →
    Carried move (Evaluation.walkAll setting deeper namesFirst trees)
      (Evaluation.walkAll setting deeper namesFirst (Tree.relocateAll move trees))
  | [], _ => refl _
  | tree :: trees, htrees => by
    obtain ⟨htree, htrees⟩ := List.forall_mem_cons.mp htrees
    rw [Tree.relocateAll, Evaluation.walkAll, Evaluation.walkAll, bareName_relocate _ htree]
    refine bind ?_ fun outcome => bind (walkAll h false htrees) fun outcomes => refl _
    cases bareName namesFirst tree with
    | some outcome => exact refl _
    | none => exact walk h htree

end

/-! ## Lines -/

theorem decorate (h : setting.Carries move) (name : String) (value : Value) :
    Carried move (Evaluation.decorate setting site name value)
      (Evaluation.decorate setting (site.relocate move) name value) := by
  unfold Evaluation.decorate
  dsimp only
  split
  case h_1 host _ _ => exact visit (host.callDecorator_carried name value)
  case h_2 => exact attempt (setting.decorators.call_carried h.decorators name value)

theorem line (h : setting.Carries move) {children : List Tree}
    (hbelow : ∀ child ∈ children, KeepsTexts move child) :
    Carried move (Evaluation.line setting deeper site children)
      (Evaluation.line setting deeper (site.relocate move) (Tree.relocateAll move children)) := by
  refine bind (walkAll h false hbelow) fun outcomes => ?_
  exact bind (relocated (refuseNames_relocate children outcomes)) fun _ =>
    bind (decorate h _ _) fun text => refl _

theorem lines (h : setting.Carries move) : ∀ {trees : List Tree},
    (∀ tree ∈ trees, KeepsTexts move tree) →
    Carried move (Evaluation.lines setting deeper trees)
      (Evaluation.lines setting deeper (Tree.relocateAll move trees))
  | [], _ => refl _
  | .leaf kind site :: trees, _ => fail site _
  | .node rule site children :: trees, htrees => by
    obtain ⟨htree, hothers⟩ := List.forall_mem_cons.mp htrees
    cases rule
    case line =>
      exact bind (line h htree.below) fun result => bind (lines h hothers) fun results => refl _
    all_goals exact fail site _

end

end Evaluation.Carried

/-! ## Line ends -/

namespace Evaluation

theorem lineEnd_relocate {tree : Tree} (h : KeepsTexts move tree) :
    lineEnd (tree.relocate move) = lineEnd tree := by
  obtain ⟨kind, site⟩ | ⟨rule, site, children⟩ := tree
  · rfl
  have hleaf : Tree.isLeaf .newline ∘ Tree.relocate move = Tree.isLeaf .newline := by
    funext child
    cases child <;> rfl
  simp only [lineEnd, Tree.relocate, Tree.children, Tree.relocateAll_eq_map, List.find?_map, hleaf]
  refine congrArg (Option.getD · "") (inputOf_relocate fun newline hnewline => ?_)
  have hkind := List.find?_some hnewline
  have hkeeps := h.below newline (List.mem_of_find?_eq_some hnewline)
  cases newline with
  | leaf kind site => exact hkeeps.leaf
  | node rule site children => cases hkind

theorem joinLines_relocate {trees : List Tree} (h : ∀ tree ∈ trees, KeepsTexts move tree)
    (results : List LineResult) :
    joinLines (Tree.relocateAll move trees) results = joinLines trees results := by
  have hends : List.zipWith (fun tree result => result.text ++ lineEnd tree)
      (Tree.relocateAll move trees) results =
        List.zipWith (fun tree result => result.text ++ lineEnd tree) trees results := by
    rw [Tree.relocateAll_eq_map, List.zipWith_map_left]
    induction trees generalizing results with
    | nil => rfl
    | cons tree trees ih =>
      obtain ⟨htree, htrees⟩ := List.forall_mem_cons.mp h
      cases results with
      | nil => rfl
      | cons result results =>
        rw [List.zipWith_cons_cons, List.zipWith_cons_cons, lineEnd_relocate htree,
          ih htrees results]
  rw [joinLines, joinLines, hends]

end Evaluation

end Calculator
