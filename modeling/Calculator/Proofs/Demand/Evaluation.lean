import Calculator.Evaluation.Script
import Calculator.Proofs.Demand.Combination
import Calculator.Proofs.Demand.Guard
import Calculator.Proofs.Extension.Visit

/-!
# Scripts under a demand

Each part of an evaluation is compared with itself under other behaviours of the functions. Nodes
may come to names that stand for nothing. Lines and variables may not.
-/

namespace Calculator

open Grammar Evaluation

variable {demand : Demand} {refusal : Option Failure} {setting : Setting}
  {behaviour : Function → Behaviour} {deeper deeper' : Deeper}

/-- Scripts inside of scripts obey the demand. -/
abbrev DeeperObeys (demand : Demand) (refusal : Option Failure) (deeper deeper' : Deeper) : Prop :=
  ∀ source, Obeys demand refusal (·.meets demand) (deeper source) (deeper' source)

namespace Bindings

variable {bindings : Bindings} {name : String} {value : Value}

theorem Meet.get? (h : Meet demand bindings) (hfound : bindings.get? name = some value) :
    value.meets demand := by
  obtain ⟨before, after, hbindings, -⟩ := List.lookup_eq_some_iff.mp hfound
  exact h (name, value) (hbindings ▸ List.mem_append_right _ List.mem_cons_self)

theorem Meet.put (h : Meet demand bindings) (name : String) (hvalue : value.meets demand) :
    Meet demand (bindings.put name value) := by
  induction bindings with
  | nil => exact List.forall_mem_singleton.mpr hvalue
  | cons binding others ih =>
    rw [Meet, List.forall_mem_cons] at h
    rw [Named.put]
    split
    · exact List.forall_mem_cons.mpr ⟨hvalue, h.2⟩
    · exact List.forall_mem_cons.mpr ⟨h.1, ih h.2⟩

end Bindings

theorem Memory.Meets.enter {memory : Memory} (h : memory.Meets demand) (definition : Definition)
    {arguments : List Value} (harguments : AllMeet demand arguments) :
    (enter definition arguments memory).Meets demand := by
  refine List.foldlRecOn (motive := fun bindings : Bindings => bindings.Meet demand) _ _ h ?_
  intro bindings hbindings ⟨name, value⟩ hpair
  exact hbindings.put name (harguments value (List.of_mem_zip hpair).2)

namespace Obeys

/-! ## Variables -/

theorem valueOf (name : String) :
    Obeys demand refusal (fun value => value.meets demand ∨ value.name?.isSome)
      (Evaluation.valueOf name) (Evaluation.valueOf name) := by
  apply look
  intro memory hmemory
  apply pure
  cases hfound : memory.valueOf? name with
  | none => exact .inr rfl
  | some value =>
    left
    unfold Memory.valueOf? at hfound
    rcases Option.or_eq_some_iff.mp hfound with hconstant | ⟨-, hbound⟩
    · have hconstants : constants.Meet demand := by
        intro binding hbinding
        simp only [constants, List.mem_cons, List.not_mem_nil, or_false] at hbinding
        rcases hbinding with rfl | rfl | rfl | rfl | rfl <;> rfl
      exact hconstants.get? hconstant
    · exact Bindings.Meet.get? hmemory hbound

theorem leaf (kind : Terminal) (site : Site) :
    Obeys demand refusal (Outcome.Loose demand) (Evaluation.leaf kind site)
      (Evaluation.leaf kind site) := by
  unfold Evaluation.leaf
  split
  · exact map (valueOf site.text) fun value hvalue => hvalue
  · exact attempt ((literal_yields kind).mono fun _ => .inl)

theorem assign (site : Site) (name : String) {value : Value} (hvalue : value.meets demand) :
    Obeys demand refusal (fun _ => True) (Evaluation.assign site name value)
      (Evaluation.assign site name value) := by
  unfold Evaluation.assign
  split
  · exact fail site _
  · exact modify fun memory hmemory => Bindings.Meet.put hmemory name hvalue

theorem updateItem_yields {site : Site} {items : List Value} {value : Value}
    (h : AllMeet demand items) (index : Value) (hvalue : value.meets demand) :
    (updateItem site items index value).Yields (AllMeet demand) := by
  unfold updateItem
  split
  · split
    · refine .ok fun item hitem => ?_
      rcases List.mem_or_eq_of_mem_set hitem with hold | rfl
      · exact h item hold
      · exact hvalue
    · split
      · exact .ok (List.forall_mem_append.mpr ⟨h, List.forall_mem_singleton.mpr hvalue⟩)
      · exact .fail
  · exact .fail
  · exact .fail

theorem updated_yields {site : Site} {container index value : Value}
    (h : container.meets demand) (hindex : index.meets demand) (hvalue : value.meets demand) :
    (updated site container index value).Yields (·.meets demand) := by
  unfold updated
  split
  · exact .ok (Value.meets_object.mpr ((Value.meets_object.mp h).insert hindex hvalue))
  · exact .array (updateItem_yields (Value.meets_array.mp h) index hvalue)
  · exact .fail

theorem assignIndexed (site : Site) (name : String) {index value : Value}
    (hindex : index.meets demand) (hvalue : value.meets demand) :
    Obeys demand refusal (fun _ => True) (Evaluation.assignIndexed site name index value)
      (Evaluation.assignIndexed site name index value) := by
  unfold Evaluation.assignIndexed
  split
  · exact fail site _
  · apply look
    intro memory hmemory
    split
    · exact fail site _
    case h_2 container hcontainer =>
      have hmeets := Bindings.Meet.get? hmemory hcontainer
      exact bind (attempt (updated_yields hmeets hindex hvalue)) fun _ hupdated =>
        assign site name hupdated

theorem define (site : Site) (children : List Tree) :
    Obeys demand refusal (·.meets demand) (Evaluation.define site children)
      (Evaluation.define site children) := by
  unfold Evaluation.define
  split
  · refine bind (modify fun memory hmemory => ?_) fun _ _ => ?_
    · exact hmemory
    · exact bind (note _) fun _ _ => pure (Value.meets_string _)
  · exact fail site _

/-! ## Calls -/

theorem helpFor (setting : Setting) (behaviour : Function → Behaviour) (call : Call) :
    Obeys demand refusal (·.meets demand) (Evaluation.helpFor setting call)
      (Evaluation.helpFor (setting.behavingAs behaviour) call) := by
  unfold Evaluation.helpFor
  simp only [Help.text_behavingAs, Help.describe_behavingAs]
  apply look
  intro memory _
  split
  · exact pure (Value.meets_string _)
  · split
    · exact pure (Value.meets_string _)
    · exact fail _ _

theorem runNested (site : Site) (source : String)
    (hdeeper : DeeperObeys demand refusal deeper deeper') :
    Obeys demand refusal (·.meets demand) (Evaluation.runNested setting deeper site source)
      (Evaluation.runNested (setting.behavingAs behaviour) deeper' site source) := by
  apply look
  intro memory _
  exact ite (fail site _) (oneDeeper (hdeeper source))

theorem callDefinition (site : Site) (definition : Definition) {arguments : List Value}
    (harguments : AllMeet demand arguments) (hdeeper : DeeperObeys demand refusal deeper deeper') :
    Obeys demand refusal (·.meets demand)
      (Evaluation.callDefinition setting deeper site definition arguments)
      (Evaluation.callDefinition (setting.behavingAs behaviour) deeper' site definition
        arguments) := by
  apply ite (fail site _)
  apply look
  intro memory _
  apply ite
  · exact bind (note _) fun _ _ => fail site _
  · exact apart (fun memory hmemory => hmemory.enter definition harguments)
      (hdeeper definition.body)

theorem behave {behaviour' : Behaviour} {call : Call} (hcall : call.Meets demand)
    (hdeeper : DeeperObeys demand refusal deeper deeper') {first : Behaviour}
    (h : first.Follows demand refusal behaviour') :
    Obeys demand refusal (·.meets demand) (Evaluation.behave setting deeper call first)
      (Evaluation.behave (setting.behavingAs behaviour) deeper' call behaviour') := by
  cases h with
  | compute h => exact follow (h call hcall)
  | consult h => exact follow (h setting.world call hcall)
  | draw h => exact bind draw fun drawn _ => follow (h (setting.world.chance drawn) call hcall)
  | help => exact helpFor setting behaviour call
  | run =>
    exact bind (attempt (.any _)) fun source _ => runNested call.site source.text hdeeper
  | runFile =>
    apply bind (attempt (.any _))
    intro path _
    exact bind (attempt (.any _)) fun source _ => runNested call.site source hdeeper

theorem callFunction (site : Site) {function : Function} {arguments : List Value}
    (h : function.behaviour.Follows demand refusal (behaviour function))
    (harguments : AllMeet demand arguments) (hdeeper : DeeperObeys demand refusal deeper deeper') :
    Obeys demand refusal (·.meets demand)
      (Evaluation.callFunction setting deeper site function arguments)
      (Evaluation.callFunction (setting.behavingAs behaviour) deeper' site
        (function.behavingAs behaviour) arguments) :=
  bind (attempt (Signature.bind_yields harguments)) fun bound hbound =>
    behave (show Call.Meets demand ⟨site, function.signature, bound⟩ from hbound) hdeeper h

/-- Help gives text, whatever it is called with. -/
theorem callHelp (site : Site) {function : Function} {arguments : List Value}
    (hhelp : function.behaviour = .help)
    (h : function.behaviour.Follows demand refusal (behaviour function)) :
    Obeys demand refusal (·.meets demand)
      (Evaluation.callFunction setting deeper site function arguments)
      (Evaluation.callFunction (setting.behavingAs behaviour) deeper' site
        (function.behavingAs behaviour) arguments) := by
  apply bind (attempt (.any _))
  intro bound _
  change Obeys demand refusal _ (Evaluation.behave _ _ _ function.behaviour)
    (Evaluation.behave _ _ _ (behaviour function))
  generalize behaviour function = second at h ⊢
  rw [hhelp] at h ⊢
  cases h
  exact helpFor setting behaviour _

theorem visitFunction {host : Host} (hhost : host.Keeps demand) (site : Site) (name : String)
    {arguments : List Value} (harguments : AllMeet demand arguments) :
    Obeys demand refusal (·.meets demand) (ofVisit (host.callFunction site name arguments))
      (ofVisit (host.callFunction site name arguments)) := by
  apply visit
  intro bindings hbindings
  unfold Host.callFunction
  cases hfunction : host.function? name with
  | none => exact ⟨hbindings, .fail⟩
  | some function =>
    obtain ⟨hafter, hplain⟩ :=
      hhost.functions name function hfunction arguments bindings harguments hbindings
    constructor
    · rcases Host.visit_bindings host site name (function arguments) bindings with heq | heq
      · exact (congrArg (Bindings.Meet demand) heq).mpr hafter
      · exact (congrArg (Bindings.Meet demand) heq).mpr hbindings
    · intro value hvalue
      obtain ⟨plain, hreturned, hread⟩ := Host.visitFor_eq_ok hvalue
      exact hplain plain hreturned value (Host.valueOf_eq_ok hread)

theorem callName (hguards : Guards demand refusal setting behaviour) (site : Site)
    {name : String} {arguments : List Value} (harguments : MayTake demand name arguments)
    (hdeeper : DeeperObeys demand refusal deeper deeper') :
    Obeys demand refusal (·.meets demand)
      (Evaluation.callName setting deeper site name arguments)
      (Evaluation.callName (setting.behavingAs behaviour) deeper' site name arguments) := by
  have hfollows {function : Function} (hfound : setting.functions.find? name = some function) :=
    hguards.functions function (List.mem_of_find?_eq_some hfound)
  simp only [Evaluation.callName, Setting.behavingAs_host, Setting.find?_behavingAs]
  apply look
  intro memory _
  rcases harguments with ⟨hdemand, rfl⟩ | harguments
  · obtain ⟨hhost, function, hfound, hhelp⟩ := hguards.help hdemand
    rw [hhost, hfound]
    exact callHelp site hhelp (hfollows hfound)
  · cases hhost : setting.host.filter fun host => (host.function? name).isSome with
    | some host =>
      have hkeeps := hguards.host host (Option.filter_eq_some_iff.mp hhost).1
      exact visitFunction hkeeps site name harguments
    | none =>
      cases hfound : setting.functions.find? name with
      | some function => exact callFunction site (hfollows hfound) harguments hdeeper
      | none =>
        cases memory.definitions.lookup name with
        | some definition => exact callDefinition site definition harguments hdeeper
        | none => exact fail site _

/-! ## Trees -/

theorem perform (hguards : Guards demand refusal setting behaviour) (site : Site)
    (format : Format) {task : Task} (htask : task.Meets demand)
    (hdeeper : DeeperObeys demand refusal deeper deeper') :
    Obeys demand refusal (Outcome.Meets demand)
      (Evaluation.perform setting deeper site format task)
      (Evaluation.perform (setting.behavingAs behaviour) deeper' site format task) := by
  cases task with
  | finish outcome => exact pure htask
  | assign name v => exact bind (assign site name htask) fun _ _ => pure htask
  | assignIndexed name index v =>
    exact bind (assignIndexed site name htask.1 htask.2) fun _ _ => pure htask.2
  | call name arguments =>
    exact bind (callName hguards site htask hdeeper) fun _ hvalue => pure hvalue

/-- What the nodes below come to, one outcome for each of them. -/
abbrev Below (demand : Demand) (trees : List Tree) (outcomes : List Outcome) : Prop :=
  outcomes.length = trees.length ∧ ∀ outcome ∈ outcomes, outcome.Loose demand

theorem node (hguards : Guards demand refusal setting behaviour) (site : Site) (rule : Rule)
    {children : List Tree} {below below' : Evaluation (List Outcome)}
    (hbelow : Obeys demand refusal (Below demand children) below below')
    (hdeeper : DeeperObeys demand refusal deeper deeper') :
    Obeys demand refusal (Outcome.Meets demand)
      (Evaluation.node setting deeper site rule children below)
      (Evaluation.node (setting.behavingAs behaviour) deeper' site rule children below') := by
  unfold Evaluation.node
  split
  · exact fail site _
  · apply bind hbelow
    rintro outcomes ⟨hlength, hloose⟩
    apply bind (attempt fun _ hcheck => hcheck)
    intro _ hcheck
    apply bind (attempt (task_yields_of_check hlength hloose hcheck))
    intro task htask
    exact perform hguards site _ htask hdeeper

/-- A name alone is no condition. -/
theorem conditionOf (site : Site) (outcome : Outcome) :
    Obeys demand refusal (fun _ => True) (ofAttempt (Evaluation.conditionOf site outcome))
      (ofAttempt (Evaluation.conditionOf site outcome)) :=
  attempt (.any _)

theorem decoratorOutcome_yields (site : Site) (children : List Tree) :
    (decoratorOutcome site children).Yields (Outcome.Loose demand) := by
  unfold decoratorOutcome
  split
  · exact .ok (.inl trivial)
  · exact .fail

theorem bareName_meets {namesFirst : Bool} {tree : Tree} {outcome : Outcome}
    (h : bareName namesFirst tree = some outcome) : outcome.Loose demand := by
  unfold bareName at h
  split at h
  · cases h
    exact .inl trivial
  · cases h

mutual

theorem walk (hguards : Guards demand refusal setting behaviour)
    (hdeeper : DeeperObeys demand refusal deeper deeper') : (tree : Tree) →
    Obeys demand refusal (Outcome.Loose demand) (Evaluation.walk setting deeper tree)
      (Evaluation.walk (setting.behavingAs behaviour) deeper' tree)
  | .leaf kind site => leaf kind site
  | .node rule site children => by
    by_cases hternary : rule = .ternary
    · subst hternary
      exact walkTernary hguards hdeeper site children
    by_cases hdefinition : rule = .definition
    · subst hdefinition
      exact map (define site children) fun _ hvalue => .inl hvalue
    by_cases hdecorator : rule = .decorator
    · subst hdecorator
      exact attempt (decoratorOutcome_yields site children)
    rw [walk_node _ _ hternary hdefinition hdecorator,
      walk_node _ _ hternary hdefinition hdecorator]
    exact (node hguards site rule (walkAll hguards hdeeper _ children) hdeeper).mono fun _ => .inl

theorem walkTernary (hguards : Guards demand refusal setting behaviour)
    (hdeeper : DeeperObeys demand refusal deeper deeper') (site : Site) :
    (children : List Tree) →
    Obeys demand refusal (Outcome.Loose demand)
      (Evaluation.walkTernary setting deeper site children)
      (Evaluation.walkTernary (setting.behavingAs behaviour) deeper' site children)
  | [condition, _, yes, _, no] => by
    apply bind (walk hguards hdeeper condition)
    intro outcome _
    apply bind (conditionOf condition.site outcome)
    intro holds _
    cases holds with
    | true => exact walk hguards hdeeper yes
    | false => exact walk hguards hdeeper no
  | [] | [_] | [_, _] | [_, _, _] | [_, _, _, _] | _ :: _ :: _ :: _ :: _ :: _ :: _ =>
    attempt .fail

theorem walkAll (hguards : Guards demand refusal setting behaviour)
    (hdeeper : DeeperObeys demand refusal deeper deeper') (namesFirst : Bool) :
    (trees : List Tree) →
    Obeys demand refusal (Below demand trees)
      (Evaluation.walkAll setting deeper namesFirst trees)
      (Evaluation.walkAll (setting.behavingAs behaviour) deeper' namesFirst trees)
  | [] => pure ⟨rfl, List.forall_mem_nil _⟩
  | tree :: trees => by
    have hfirst : Obeys demand refusal (Outcome.Loose demand)
        ((bareName namesFirst tree).elim (Evaluation.walk setting deeper tree) Pure.pure)
        ((bareName namesFirst tree).elim
          (Evaluation.walk (setting.behavingAs behaviour) deeper' tree) Pure.pure) := by
      cases hname : bareName namesFirst tree with
      | some outcome => exact pure (bareName_meets hname)
      | none => exact walk hguards hdeeper tree
    apply bind hfirst
    intro outcome houtcome
    apply bind (walkAll hguards hdeeper false trees)
    rintro outcomes ⟨hlength, houtcomes⟩
    exact pure ⟨congrArg Nat.succ hlength, List.forall_mem_cons.mpr ⟨houtcome, houtcomes⟩⟩

end

/-! ## Scripts -/

theorem decorate (hguards : Guards demand refusal setting behaviour) (site : Site)
    (name : String) {value : Value} (hvalue : value.meets demand) :
    Obeys demand refusal (fun _ => True) (Evaluation.decorate setting site name value)
      (Evaluation.decorate (setting.behavingAs behaviour) site name value) := by
  simp only [Evaluation.decorate, Setting.behavingAs_host, Setting.behavingAs_decorators]
  split
  case h_1 host _ hhost =>
    apply visit
    intro bindings hbindings
    refine ⟨?_, .any _⟩
    have hkeeps := hguards.host host (Option.filter_eq_some_iff.mp hhost).1
    unfold Host.callDecorator
    cases hdecorator : host.decorator? name with
    | none => exact hbindings
    | some decorator =>
      have hafter := hkeeps.decorators name decorator hdecorator value bindings hvalue hbindings
      rcases Host.visit_bindings host site ("@" ++ name) (decorator value) bindings with heq | heq
      · exact (congrArg (Bindings.Meet demand) heq).mpr hafter
      · exact (congrArg (Bindings.Meet demand) heq).mpr hbindings
  case h_2 => exact attempt (.any _)

end Obeys

def LineResult.Meets (demand : Demand) (result : LineResult) : Prop := result.value.meets demand

/-- The values of all lines and the one of the script. -/
structure ScriptResult.Meets (demand : Demand) (result : ScriptResult) : Prop where
  lines : ∀ line ∈ result.lines, line.Meets demand
  value : result.value.meets demand

theorem lineValue_meets {outcomes : List Outcome}
    (h : ∀ outcome ∈ outcomes, outcome.Meets demand) : (lineValue outcomes).meets demand := by
  unfold lineValue
  cases hfound : outcomes.findSome? _ with
  | none => rfl
  | some value =>
    obtain ⟨outcome, houtcome, hvalue⟩ := List.exists_of_findSome?_eq_some hfound
    have hmeets := h outcome houtcome
    obtain ⟨meaning, format⟩ := outcome
    cases meaning with
    | value v =>
      cases hvalue
      exact hmeets
    | _ => cases hvalue

namespace Obeys

theorem line (hguards : Guards demand refusal setting behaviour)
    (hdeeper : DeeperObeys demand refusal deeper deeper') (site : Site) (children : List Tree) :
    Obeys demand refusal (LineResult.Meets demand)
      (Evaluation.line setting deeper site children)
      (Evaluation.line (setting.behavingAs behaviour) deeper' site children) := by
  apply bind (walkAll hguards hdeeper false children)
  rintro outcomes ⟨hlength, hloose⟩
  apply bind (attempt fun _ hcheck => hcheck)
  intro _ hcheck
  have hvalue := lineValue_meets (refuseNames_meets hlength hloose hcheck)
  exact bind (decorate hguards site _ hvalue) fun _ _ => pure hvalue

theorem lines (hguards : Guards demand refusal setting behaviour)
    (hdeeper : DeeperObeys demand refusal deeper deeper') : (trees : List Tree) →
    Obeys demand refusal (fun results => ∀ result ∈ results, result.Meets demand)
      (Evaluation.lines setting deeper trees)
      (Evaluation.lines (setting.behavingAs behaviour) deeper' trees)
  | [] => pure (List.forall_mem_nil _)
  | .leaf .. :: _ => fail _ _
  | .node rule site children :: trees => by
    cases rule
    case line =>
      apply bind (line hguards hdeeper site children)
      intro result hresult
      apply bind (lines hguards hdeeper trees)
      intro results hresults
      exact pure (List.forall_mem_cons.mpr ⟨hresult, hresults⟩)
    all_goals exact fail _ _

theorem script (hguards : Guards demand refusal setting behaviour)
    (hdeeper : DeeperObeys demand refusal deeper deeper') (source : String) :
    Obeys demand refusal (ScriptResult.Meets demand)
      (Evaluation.script setting deeper source)
      (Evaluation.script (setting.behavingAs behaviour) deeper' source) := by
  apply bind (attempt (.any _))
  intro tree _
  apply bind (lines hguards hdeeper tree.children)
  intro results hresults
  refine pure ⟨hresults, ?_⟩
  dsimp only
  cases hlast : results.getLast? with
  | none => rfl
  | some result => exact hresults result (List.mem_of_getLast? hlast)

/-- By the number of levels that are left. -/
theorem deeperIn (hguards : Guards demand refusal setting behaviour) (room : Nat) :
    DeeperObeys demand refusal (Evaluation.deeperIn setting room)
      (Evaluation.deeperIn (setting.behavingAs behaviour) room) := by
  induction room with
  | zero => exact fun _ _ hmemory => .inr ⟨rfl, hmemory, .error⟩
  | succ room ih =>
    exact fun source => map (script hguards ih source) fun _ hresult => hresult.value

/-- A whole evaluation, and the same with other behaviours. -/
theorem evaluate (hguards : Guards demand refusal setting behaviour) (source : String) :
    Obeys demand refusal (ScriptResult.Meets demand) (Calculator.evaluate setting source)
      (Calculator.evaluate (setting.behavingAs behaviour) source) := by
  apply look
  intro memory _
  exact script hguards (deeperIn hguards _) source

end Obeys

end Calculator
