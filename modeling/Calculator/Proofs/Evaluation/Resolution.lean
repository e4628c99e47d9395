import Calculator.Proofs.Evaluation.Rendering

/-!
# What a name leads to

A called name leads to a function of an extension first, then to one of the table, then to one that
a script has defined. The name of a decorator leads to an extension first and then to the table,
except for the five names that lines without a decorator use: those lead to the table only.
-/

namespace Calculator

open Grammar Evaluation

/-! ## Calls -/

/-- What a called name leads to. -/
inductive Callee where
  | foreign (host : Host) (work : List Value → Bindings → Reply Plain)
  | listed (function : Function)
  | defined (definition : Definition)

def Callee.call (setting : Setting) (deeper : Deeper) (site : Site) (name : String)
    (arguments : List Value) : Callee → Evaluation Value
  | foreign host work =>
    ofVisit (host.visitFor site name (work arguments) (Host.valueOf site name))
  | listed function => callFunction setting deeper site function arguments
  | defined definition => callDefinition setting deeper site definition arguments

namespace Setting

def foreignCallee? (setting : Setting) (name : String) : Option Callee :=
  setting.host.bind fun host => (host.function? name).map (.foreign host)

def callee? (setting : Setting) (memory : Memory) (name : String) : Option Callee :=
  (setting.foreignCallee? name).or
    (((setting.functions.find? name).map .listed).or
      ((memory.definitions.lookup name).map .defined))

end Setting

/-! ## Decorators -/

/-- What the name of a decorator leads to. -/
inductive Writer where
  | foreign (host : Host) (work : Value → Bindings → Reply Shown)
  | listed (decorator : Decorator)

def Writer.write (site : Site) (name : String) (value : Value) : Writer → Evaluation String
  | foreign host work => ofVisit (host.visitFor site ("@" ++ name) (work value) Host.textOf)
  | listed decorator => ofAttempt (decorator.call site value)

namespace Setting

def foreignWriter? (setting : Setting) (name : String) : Option Writer :=
  if isFixed name then none
  else setting.host.bind fun host => (host.decorator? name).map (.foreign host)

def writer? (setting : Setting) (name : String) : Option Writer :=
  (setting.foreignWriter? name).or ((setting.decorators.find? name).map .listed)

end Setting

namespace Evaluation

variable (setting : Setting) (deeper : Deeper) (site : Site) (name : String)

theorem callFunction_of_function? {host : Host} {work : List Value → Bindings → Reply Plain}
    (h : host.function? name = some work) (arguments : List Value) :
    host.callFunction site name arguments =
      host.visitFor site name (work arguments) (Host.valueOf site name) := by
  funext bindings
  rw [Host.callFunction, h]

theorem callDecorator_of_decorator? {host : Host} {work : Value → Bindings → Reply Shown}
    (h : host.decorator? name = some work) (value : Value) :
    host.callDecorator site name value =
      host.visitFor site ("@" ++ name) (work value) Host.textOf := by
  funext bindings
  rw [Host.callDecorator, h]

theorem bind_map_eq_none_of_filter {α β : Type} {host? : Option Host} {f : Host → Option α}
    (g : Host → α → β) (h : (host?.filter fun host => (f host).isSome) = none) :
    (host?.bind fun host => (f host).map (g host)) = none := by
  rw [Option.filter_eq_none_iff] at h
  rw [Option.bind_eq_none_iff]
  intro host hhost
  simpa using h host hhost

theorem callName_apply (arguments : List Value) (memory : Memory) :
    callName setting deeper site name arguments memory =
      (setting.callee? memory name).elim (fail site (.unknownFunction name))
        (·.call setting deeper site name arguments) memory := by
  rw [callName, get_bind_apply, Setting.callee?]
  cases h : setting.host.filter fun host => (host.function? name).isSome with
  | some host =>
    obtain ⟨hhost, hsome⟩ := Option.filter_eq_some_iff.mp h
    obtain ⟨work, hwork⟩ := Option.isSome_iff_exists.mp hsome
    dsimp only
    rw [callFunction_of_function? site name hwork, Setting.foreignCallee?, hhost, Option.bind_some,
      hwork]
    rfl
  | none =>
    rw [Setting.foreignCallee?, bind_map_eq_none_of_filter _ h, Option.none_or]
    cases setting.functions.find? name with
    | some function => rfl
    | none => cases memory.definitions.lookup name <;> rfl

theorem ofAttempt_apply {α : Type} (attempt : Attempt α) (memory : Memory) :
    ofAttempt attempt memory = (attempt, memory) := by
  cases attempt <;> rfl

theorem ofAttempt_call (value : Value) :
    ofAttempt (setting.decorators.call site name value) =
      ((setting.decorators.find? name).map Writer.listed).elim (fail site (.unknownDecorator name))
        (·.write site name value) := by
  rw [DecoratorTable.call]
  cases setting.decorators.find? name <;> rfl

theorem decorate_eq (value : Value) :
    decorate setting site name value =
      (setting.writer? name).elim (fail site (.unknownDecorator name))
        (·.write site name value) := by
  rw [decorate, Setting.writer?]
  cases hfixed : isFixed name with
  | true =>
    rw [Setting.foreignWriter?, if_pos hfixed, Option.none_or]
    exact ofAttempt_call setting site name value
  | false =>
    cases h : setting.host.filter fun host => (host.decorator? name).isSome with
    | some host =>
      obtain ⟨hhost, hsome⟩ := Option.filter_eq_some_iff.mp h
      obtain ⟨work, hwork⟩ := Option.isSome_iff_exists.mp hsome
      dsimp only
      rw [callDecorator_of_decorator? site name hwork, Setting.foreignWriter?, hfixed, hhost,
        if_neg Bool.false_ne_true, Option.bind_some, hwork]
      rfl
    | none =>
      rw [Setting.foreignWriter?, bind_map_eq_none_of_filter _ h, ite_self, Option.none_or]
      exact ofAttempt_call setting site name value

end Evaluation

/-! ## Lines -/

/-- The name in a node that names a decorator. -/
def Grammar.Tree.decoratorName? : Tree → Option String
  | .node .decorator _ [_, name] => some name.input
  | _ => none

/-- The name of the decorator that a line carries. -/
def decoratorOf? (children : List Tree) : Option String := children.findSome? Tree.decoratorName?

namespace Evaluation

variable {setting : Setting} {deeper : Deeper} {source : String} {tree : Tree} {site : Site}
  {children : List Tree} {outcomes : List Outcome} {memory after : Memory}

theorem walkAll_eq_ok {trees : List Tree}
    (h : walkAll setting deeper false (tree :: trees) memory = (.ok outcomes, after)) :
    ∃ outcome others between, outcomes = outcome :: others ∧
      walk setting deeper tree memory = (.ok outcome, between) ∧
      walkAll setting deeper false trees between = (.ok others, after) := by
  have hname : bareName false tree = none := rfl
  rw [walkAll, bind_apply, hname, Option.elim_none] at h
  rcases hfirst : walk setting deeper tree memory with ⟨failure | outcome, between⟩
  · rw [hfirst] at h
    cases h
  · rw [hfirst] at h
    dsimp only at h
    rw [bind_apply] at h
    rcases hothers : walkAll setting deeper false trees between with ⟨failure | others, last⟩
    · rw [hothers] at h
      cases h
    · rw [hothers] at h
      cases h
      exact ⟨outcome, others, between, rfl, rfl, hothers⟩

theorem walk_decorator {outcome : Outcome}
    (h : walk setting deeper (.node .decorator site children) memory = (.ok outcome, after)) :
    ∃ mark name, children = [mark, name] ∧ outcome.meaning = .decorator name.input := by
  rw [walk, decoratorOutcome.eq_def] at h
  split at h
  · cases h
    exact ⟨_, _, rfl, rfl⟩
  · cases h

/-- The first outcome that is a decorator is that of the first node that names one. -/
theorem lineDecorator_eq_getD
    (hroles : (outcomes.map (·.meaning)).map Meaning.role = children.map Tree.role)
    (hwalk : walkAll setting deeper false children memory = (.ok outcomes, after))
    (format : Format) :
    lineDecorator format outcomes = (decoratorOf? children).getD format.decorator := by
  rw [lineDecorator, decoratorOf?]
  congr 1
  -- Nodes and outcomes play the same roles, so the first decorators among them are at one place.
  induction children generalizing outcomes memory with
  | nil =>
    cases hwalk
    rfl
  | cons child children ih =>
    obtain ⟨outcome, others, between, rfl, hchild, hothers⟩ := walkAll_eq_ok hwalk
    rw [List.map_cons, List.map_cons, List.map_cons, List.cons.injEq] at hroles
    rw [List.findSome?_cons, List.findSome?_cons, ih hroles.2 hothers]
    by_cases hdecorator : child.role = .decorator
    · obtain ⟨place, parts, rfl⟩ := role_eq_decorator hdecorator
      obtain ⟨mark, name, rfl, hmeaning⟩ := walk_decorator hchild
      rw [hmeaning]
      rfl
    · have hnode : child.decoratorName? = none := by
        unfold Tree.decoratorName?
        split
        · exact absurd rfl hdecorator
        · rfl
      rw [hnode]
      cases hmeaning : outcome.meaning with
      | decorator name =>
        rw [hmeaning] at hroles
        exact absurd hroles.1.symm hdecorator
      | _ => rfl

/-- Once its parts have come to something, a line is written by what its decorator leads to. -/
theorem line_apply (hparse : parse source = .ok tree)
    (hline : .node .line site children ∈ tree.children)
    (hwalk : walkAll setting deeper false children memory = (.ok outcomes, after))
    (hnames : refuseNames children outcomes = .ok ()) :
    let value := lineValue outcomes
    let format := Outcome.formatOf outcomes
    let name := (decoratorOf? children).getD format.decorator
    line setting deeper site children memory =
      ((fun text => (⟨text, value, format⟩ : LineResult)) <$> decorate setting site name value)
        after := by
  intro value format name
  rw [line, bind_apply, hwalk]
  dsimp only
  rw [hnames, lineDecorator_eq_getD (roles_of_line hparse hline hwalk) hwalk]
  rfl

/-! ## Names that no extension takes over -/

theorem isFixed_iff {name : String} :
    isFixed name = true ↔ name ∈ ["default", "dollars", "euros", "pounds", "yen"] := by
  rw [isFixed, List.contains_iff_mem]

theorem writer?_of_fixed {name : String} (h : isFixed name = true) :
    setting.writer? name = (setting.decorators.find? name).map .listed := by
  rw [Setting.writer?, Setting.foreignWriter?, if_pos h, Option.none_or]

/-- The first extension with the name provides it. -/
theorem writer?_of_first {host : Host} {before others : List Extension} {extension : Extension}
    {name : String} {work : Value → Bindings → Reply Shown} (hfixed : ¬isFixed name = true)
    (hhost : setting.host = some host)
    (hextensions : host.extensions = before ++ extension :: others)
    (hbefore : ∀ earlier ∈ before, earlier.decorators.lookup name = none)
    (hwork : extension.decorators.lookup name = some work) :
    setting.writer? name = some (.foreign host work) := by
  have hfirst : host.decorator? name = some work := by
    rw [Host.decorator?, hextensions, List.findSome?_append, List.findSome?_eq_none_iff.mpr hbefore,
      Option.none_or, List.findSome?_cons, hwork]
  rw [Setting.writer?, Setting.foreignWriter?, if_neg hfixed, hhost, Option.bind_some, hfirst]
  rfl

theorem writer?_of_none {name : String} (hnone : ∀ host ∈ setting.host,
    ∀ extension ∈ host.extensions, extension.decorators.lookup name = none) :
    setting.writer? name = (setting.decorators.find? name).map .listed := by
  have hforeign : setting.foreignWriter? name = none := by
    rw [Setting.foreignWriter?, ite_eq_left_iff]
    intro _
    rw [Option.bind_eq_none_iff]
    intro host hhost
    rw [Host.decorator?, List.findSome?_eq_none_iff.mpr (hnone host hhost)]
    rfl
  rw [Setting.writer?, hforeign, Option.none_or]

theorem decorate_of_table {name : String}
    (h : setting.writer? name = (setting.decorators.find? name).map .listed) (value : Value) :
    decorate setting site name value = ofAttempt (setting.decorators.call site name value) := by
  rw [decorate_eq, h, ← ofAttempt_call]

/--
A line without a decorator, or with one of the five that such lines use, is written as without
extensions, and that changes nothing in the memory. Any other decorator belongs to the first
extension that provides it, and to the table only if none does.
-/
theorem line_decorated (hparse : parse source = .ok tree)
    (hline : .node .line site children ∈ tree.children)
    (hwalk : walkAll setting deeper false children memory = (.ok outcomes, after))
    (hnames : refuseNames children outcomes = .ok ()) :
    let value := lineValue outcomes
    let format := Outcome.formatOf outcomes
    let name := (decoratorOf? children).getD format.decorator
    let fixed := ["default", "dollars", "euros", "pounds", "yen"]
    let written := line setting deeper site children memory
    let writtenBy (writer : Evaluation String) : Prop :=
      written = ((fun text => (⟨text, value, format⟩ : LineResult)) <$> writer) after
    (decoratorOf? children = none → name ∈ fixed) ∧
    (name ∈ fixed →
      writtenBy (decorate { setting with host := none } site name value) ∧ written.2 = after) ∧
    (name ∉ fixed →
      (∀ host before extension others work, setting.host = some host →
        host.extensions = before ++ extension :: others →
        (∀ earlier ∈ before, earlier.decorators.lookup name = none) →
        extension.decorators.lookup name = some work →
          writtenBy (ofVisit (host.visitFor site ("@" ++ name) (work value) Host.textOf))) ∧
      ((∀ host ∈ setting.host, ∀ extension ∈ host.extensions,
          extension.decorators.lookup name = none) →
        writtenBy (ofAttempt (setting.decorators.call site name value)))) := by
  intro value format name fixed written writtenBy
  have hwritten : writtenBy (decorate setting site name value) :=
    line_apply hparse hline hwalk hnames
  refine ⟨fun hplain => ?_, fun hname => ?_, fun hname => ⟨?_, fun hnone => ?_⟩⟩
  · have hformat : name = format.decorator := congrArg (·.getD format.decorator) hplain
    rw [hformat]
    exact isFixed_iff.mp (isFixed_decorator format)
  · have htable : decorate setting site name value =
        ofAttempt (setting.decorators.call site name value) :=
      decorate_of_table (writer?_of_fixed (isFixed_iff.mpr hname)) value
    have halone : decorate { setting with host := none } site name value =
        ofAttempt (setting.decorators.call site name value) :=
      decorate_of_table (writer?_of_none fun _ hhost => absurd hhost (Option.not_mem_none _)) value
    refine ⟨by rw [halone, ← htable]; exact hwritten, ?_⟩
    rw [show written = _ from hwritten, htable, map_apply, ofAttempt_apply]
  · intro host before extension others work hhost hextensions hbefore hwork
    have hwriter := writer?_of_first (mt isFixed_iff.mp hname) hhost hextensions hbefore hwork
    have hforeign : decorate setting site name value =
        ofVisit (host.visitFor site ("@" ++ name) (work value) Host.textOf) := by
      rw [decorate_eq, hwriter]
      rfl
    rw [← hforeign]
    exact hwritten
  · rw [← decorate_of_table (writer?_of_none hnone)]
    exact hwritten

/-- It has two names of the table, and it leaves a variable behind. -/
def teller : Host :=
  ⟨[{ name := "teller"
      author := ""
      version := ""
      functions := []
      decorators := [
        ("usd",
          fun _ bindings => ⟨.returned (.text "sold"), bindings.put "sold" (.bool true), 0.0⟩),
        ("dollars", fun _ bindings => ⟨.returned (.text "spent"), bindings, 0.0⟩)]
      source := none }], none⟩

theorem line_decorated_teller :
    let setting : Setting := ⟨50, .builtin, .builtin, some teller, .still⟩
    let site : Site := ⟨"5 @usd", 0⟩
    let children : List Tree := [.leaf .int ⟨"5", 0⟩, .node .decorator ⟨"@usd", 2⟩
      [.leaf .atSign ⟨"@", 2⟩, .leaf .identifier ⟨"usd", 3⟩]]
    let outcomes : List Outcome := [⟨.value (.int 5), .default⟩, ⟨.decorator "usd", .default⟩]
    let deeper := deeperFor setting 0
    parse "5 @usd" = .ok (.node .script site [.node .line site children]) ∧
    walkAll setting deeper false children .empty = (.ok outcomes, .empty) ∧
    refuseNames children outcomes = .ok () ∧
    line setting deeper site children .empty = (.ok ⟨"sold", .int 5, .default⟩,
      { Memory.empty with bindings := [("sold", .bool true)] }) := by
  intro setting site children outcomes deeper
  have hparse : parse "5 @usd" = .ok (.node .script site [.node .line site children]) := by
    decide +kernel
  have hwalk : walkAll setting deeper false children .empty = (.ok outcomes, .empty) := by rfl
  have hnames : refuseNames children outcomes = .ok () := rfl
  refine ⟨hparse, hwalk, hnames, ?_⟩
  obtain ⟨-, -, hother⟩ := line_decorated hparse (List.mem_singleton_self _) hwalk hnames
  exact (hother (by decide)).1 teller [] _ [] _ rfl rfl nofun rfl

/-- Of two names of one decorator of the table, an extension takes over one. -/
theorem line_taken_over :
    let setting : Setting := ⟨50, .builtin, .builtin, some teller, .still⟩
    let alone : Setting := { setting with host := none }
    (evaluate alone "5 @usd" .empty).1.toOption.map (·.text) = some "$5.00" ∧
    (evaluate setting "5 @usd" .empty).1.toOption.map (·.text) = some "sold" ∧
    (evaluate setting "5 @usd" .empty).2.bindings.get? "sold" ≠ none ∧
    (evaluate setting "5 @dollars" .empty).1.toOption.map (·.text) = some "$5.00" := by
  refine ⟨by decide +kernel, by decide +kernel, by decide +kernel, by decide +kernel⟩

end Evaluation

end Calculator
