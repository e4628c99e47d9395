import Calculator.Proofs.Decorator.Listing
import Calculator.Proofs.Evaluation.Resolution
import Calculator.Proofs.Hazard.Decorator

/-!
# What help says about a name

Help about a function describes what a call of it would run. Help about a decorator describes what
would write a line, unless an extension has taken over a name of the table: help looks into the
table first, and lines ask the extensions first. There is help about a decorator just if a line can
use it.
-/

namespace Calculator

open Grammar Evaluation

/-! ## Descriptions -/

/-- Foreign functions are not described. -/
def Callee.help (name : String) : Callee → String
  | foreign _ _ => s!"{name}(...)"
  | listed function => function.help
  | defined definition => definition.signature

def Writer.help (name : String) : Writer → String
  | foreign _ _ => "@" ++ name
  | listed decorator => decorator.help

/-- An extension provides a decorator of the table. -/
def Setting.TakenOver (setting : Setting) (name : String) : Prop :=
  (setting.foreignWriter? name).isSome ∧ (setting.decorators.find? name).isSome

namespace Help

variable {setting : Setting} {memory : Memory} {name : String}

theorem isSome_foreignCallee? :
    (setting.foreignCallee? name).isSome = hostHasFunction setting name := by
  rw [Setting.foreignCallee?, hostHasFunction]
  cases setting.host with
  | none => rfl
  | some host => exact Option.isSome_map ..

theorem isSome_foreignWriter? (hfixed : ¬isFixed name = true) :
    (setting.foreignWriter? name).isSome = hostHasDecorator setting name := by
  rw [Setting.foreignWriter?, if_neg hfixed, hostHasDecorator]
  cases setting.host with
  | none => rfl
  | some host => exact Option.isSome_map ..

theorem help_of_foreignCallee? {callee : Callee} (h : setting.foreignCallee? name = some callee) :
    callee.help name = s!"{name}(...)" := by
  obtain ⟨host, -, hcallee⟩ := Option.bind_eq_some_iff.mp h
  obtain ⟨work, -, rfl⟩ := Option.map_eq_some_iff.mp hcallee
  rfl

theorem help_of_foreignWriter? {writer : Writer} (h : setting.foreignWriter? name = some writer) :
    writer.help name = "@" ++ name := by
  rw [Setting.foreignWriter?] at h
  split at h
  · cases h
  · obtain ⟨host, -, hwriter⟩ := Option.bind_eq_some_iff.mp h
    obtain ⟨work, -, rfl⟩ := Option.map_eq_some_iff.mp hwriter
    rfl

theorem describeFunction_eq :
    describeFunction setting memory name =
      (setting.callee? memory name).map (Callee.help name) := by
  rw [describeFunction, ← isSome_foreignCallee?, Setting.callee?]
  cases h : setting.foreignCallee? name with
  | some callee => exact congrArg some (help_of_foreignCallee? h).symm
  | none =>
    cases setting.functions.find? name with
    | some function => rfl
    | none => cases memory.definitions.lookup name <;> rfl

theorem describe_of_callee {callee : Callee} (hname : name.toList.head? ≠ some '@')
    (h : setting.callee? memory name = some callee) :
    describe setting memory name = some (callee.help name) := by
  unfold describe
  split
  case h_1 hat => exact absurd (hat ▸ rfl) hname
  case h_2 =>
    rw [describeFunction_eq, h]
    rfl

theorem describe_at : describe setting memory ("@" ++ name) = describeDecorator setting name := by
  have hname : ("@" ++ name).toList = '@' :: name.toList := String.toList_append
  unfold describe
  rw [hname]
  exact congrArg (describeDecorator setting) String.ofList_toList

/-! ## Decorators -/

/-- The five names that lines without a decorator use are in every table that starts as usual. -/
theorem isSome_find?_of_isFixed {registered : List Decorator}
    (hdecorators : setting.decorators = registered.foldl DecoratorTable.add .builtin)
    (hfixed : isFixed name = true) : (setting.decorators.find? name).isSome := by
  have hall : ∀ name ∈ ["default", "dollars", "euros", "pounds", "yen"],
      ∃ decorator ∈ Builtin.decorators, name ∈ decorator.names := by decide
  obtain ⟨decorator, hdecorator, hname⟩ := hall name (isFixed_iff.mp hfixed)
  rw [hdecorators, DecoratorTable.addAll_builtin]
  refine (DecoratorTable.Faithful.ofList _).isSome_find? ?_ hname
  rw [DecoratorTable.decorators_ofList]
  exact List.mem_append_left _ hdecorator

variable (hfixed : isFixed name = true → (setting.decorators.find? name).isSome)
include hfixed

theorem describeDecorator_of_none (h : setting.decorators.find? name = none) :
    describeDecorator setting name = (setting.writer? name).map (Writer.help name) := by
  -- The names that no extension takes over are all in the table, so this is none of them.
  have hfree : ¬isFixed name = true := mt hfixed (by rw [h]; exact Bool.false_ne_true)
  rw [describeDecorator, h, ← isSome_foreignWriter? hfree, Setting.writer?, h]
  cases hforeign : setting.foreignWriter? name with
  | some writer => exact congrArg some (help_of_foreignWriter? hforeign).symm
  | none => rfl

theorem describeDecorator_eq (hown : ¬setting.TakenOver name) :
    describeDecorator setting name = (setting.writer? name).map (Writer.help name) := by
  cases hfind : setting.decorators.find? name with
  | none => exact describeDecorator_of_none hfixed hfind
  | some decorator =>
    have hforeign : setting.foreignWriter? name = none := by
      rw [← Option.not_isSome_iff_eq_none]
      exact fun hsome => hown ⟨hsome, by rw [hfind]; rfl⟩
    rw [describeDecorator, hfind, Setting.writer?, hforeign, hfind]
    rfl

theorem describeDecorator_eq_none_iff :
    describeDecorator setting name = none ↔ setting.writer? name = none := by
  cases hfind : setting.decorators.find? name with
  | none => rw [describeDecorator_of_none hfixed hfind, Option.map_eq_none_iff]
  | some decorator =>
    rw [describeDecorator, hfind, Setting.writer?, hfind]
    cases setting.foreignWriter? name <;> simp

end Help

/-! ## Missing decorators -/

/-- It says that a name leads to no decorator. -/
def Failure.missesDecorator : Failure → Bool
  | .error (.unknownDecorator _) _ => true
  | _ => false

theorem Failure.missesDecorator_of_isUnwritable {failure : Failure} (h : failure.isUnwritable) :
    failure.missesDecorator = false := by
  unfold Failure.isUnwritable at h
  split at h
  case h_5 => cases h
  all_goals rfl

def Attempt.MissesDecorator {α : Type} (attempt : Attempt α) : Prop :=
  ∃ failure, attempt = .error failure ∧ failure.missesDecorator = true

/-- No decorator of others fails as if there were no decorator of that name. -/
structure Setting.Candid (setting : Setting) (registered : List Decorator) : Prop where
  decorators : ∀ decorator ∈ registered, decorator.FailsAs (·.missesDecorator = false)
  host : ∀ host ∈ setting.host, ∀ name work, host.decorator? name = some work →
    ∀ value bindings failure,
      (work value bindings).finish = .raised failure → failure.missesDecorator = false

theorem Host.visit_failsAs {α : Type} {kind : Failure → Prop} {site : Site}
    (hcomplaint : ∀ complaint, kind (.located site (.extension complaint))) (host : Host)
    (label : String) {work : Bindings → Reply α} {bindings : Bindings}
    (hraised : ∀ failure, (work bindings).finish = .raised failure → kind failure) :
    (host.visit site label work bindings).1.FailsAs kind := by
  have hfinish : (host.finishWith site label (work bindings).finish).FailsAs kind := by
    cases hcase : (work bindings).finish with
    | returned a => exact .ok a
    | failed complaint => exact .error (hcomplaint _)
    | timedOut => exact .error (hcomplaint _)
    | raised failure => exact .error (hraised failure hcase)
  unfold visit
  dsimp only
  split
  · exact hfinish
  · split
    · exact .error (hcomplaint _)
    · split
      case h_1 => exact .ok _
      case h_2 hfailure => exact .error (hfinish _ hfailure)

namespace Help

variable {setting : Setting} {registered : List Decorator} {name : String}

theorem listed_failsAs (hcandid : setting.Candid registered)
    (hdecorators : setting.decorators = registered.foldl DecoratorTable.add .builtin)
    {decorator : Decorator} (hdecorator : setting.decorators.find? name = some decorator)
    (site : Site) (value : Value) :
    (decorator.call site value).FailsAs (·.missesDecorator = false) := by
  have hmem : decorator ∈ Builtin.decorators ++ registered := by
    rw [hdecorators, DecoratorTable.addAll_builtin] at hdecorator
    obtain ⟨place, -, hplace⟩ := Option.bind_eq_some_iff.mp hdecorator
    rw [← DecoratorTable.decorators_ofList (Builtin.decorators ++ registered)]
    exact List.mem_of_getElem? hplace
  refine Decorator.call_failsAs ?_ (fun _ => rfl) site value
  rcases List.mem_append.mp hmem with hbuiltin | hregistered
  · exact fun site value => (Builtin.decorators_failsAs decorator hbuiltin site value).mono
      fun _ => Failure.missesDecorator_of_isUnwritable
  · exact hcandid.decorators decorator hregistered

theorem write_failsAs (hcandid : setting.Candid registered)
    (hdecorators : setting.decorators = registered.foldl DecoratorTable.add .builtin)
    {writer : Writer} (hwriter : setting.writer? name = some writer) (site : Site) (value : Value)
    (memory : Memory) :
    Attempt.FailsAs (·.missesDecorator = false) (writer.write site name value memory).1 := by
  rw [Setting.writer?, Option.or_eq_some_iff] at hwriter
  rcases hwriter with hforeign | ⟨-, hlisted⟩
  · rw [Setting.foreignWriter?] at hforeign
    split at hforeign
    · cases hforeign
    · obtain ⟨host, hhost, hwriter⟩ := Option.bind_eq_some_iff.mp hforeign
      obtain ⟨work, hwork, rfl⟩ := Option.map_eq_some_iff.mp hwriter
      rw [Writer.write, ofVisit_apply]
      refine (Host.visit_failsAs (fun _ => rfl) host ("@" ++ name)
        (hcandid.host host hhost name work hwork value memory.bindings)).bind fun shown => ?_
      cases shown with
      | value v => exact .ok _
      | text s => exact .ok _
      | textless what => exact .error rfl
  · obtain ⟨decorator, hdecorator, rfl⟩ := Option.map_eq_some_iff.mp hlisted
    have hcall := listed_failsAs hcandid hdecorators hdecorator site value
    rw [Writer.write, ofAttempt_apply]
    exact hcall

/-- A line whose parts have come to something misses its decorator if nothing has that name. -/
theorem written_misses_iff (hcandid : setting.Candid registered)
    (hdecorators : setting.decorators = registered.foldl DecoratorTable.add .builtin) (site : Site)
    (value : Value) (f : String → LineResult) (memory : Memory) :
    Attempt.MissesDecorator ((f <$> (setting.writer? name).elim
        (fail site (.unknownDecorator name)) (·.write site name value)) memory).1 ↔
      setting.writer? name = none := by
  rw [map_apply]
  cases hwriter : setting.writer? name with
  | none => exact iff_of_true ⟨_, rfl, rfl⟩ rfl
  | some writer =>
    refine iff_of_false ?_ (Option.some_ne_none writer)
    rintro ⟨failure, hfailure, hmisses⟩
    have hfails := (write_failsAs hcandid hdecorators hwriter site value memory).bind
      fun text => Attempt.FailsAs.ok (f text)
    exact Bool.false_ne_true ((hfails failure hfailure).symm.trans hmisses)

/--
Help about a name that a call can use describes what the call runs. Help about a decorator describes
what writes a line with that decorator, unless an extension has taken over a name of the table.
There is none just if no line can be written with it: then the line fails because it misses the
decorator, and it fails in that way in no other case, unless the code of others does so of itself.
-/
theorem describe_resolves (setting : Setting) (registered : List Decorator)
    (hdecorators : setting.decorators = registered.foldl DecoratorTable.add .builtin)
    (memory : Memory) (name : String) :
    let description := describe setting memory ("@" ++ name)
    (name.toList.head? ≠ some '@' →
      (∀ callee, setting.callee? memory name = some callee →
        describe setting memory name = some (callee.help name)) ∧
      ∀ deeper site arguments, callName setting deeper site name arguments memory =
        (setting.callee? memory name).elim (fail site (.unknownFunction name))
          (·.call setting deeper site name arguments) memory) ∧
    (¬setting.TakenOver name → description = (setting.writer? name).map (Writer.help name)) ∧
    (description = none ↔ setting.writer? name = none) ∧
    ∀ source tree site children deeper before outcomes after, parse source = .ok tree →
      .node .line site children ∈ tree.children → decoratorOf? children = some name →
      walkAll setting deeper false children before = (.ok outcomes, after) →
      refuseNames children outcomes = .ok () →
        let value := lineValue outcomes
        let format := Outcome.formatOf outcomes
        let written := line setting deeper site children before
        written = ((fun text => (⟨text, value, format⟩ : LineResult)) <$>
          (setting.writer? name).elim (fail site (.unknownDecorator name))
            (·.write site name value)) after ∧
        (setting.Candid registered →
          (Attempt.MissesDecorator written.1 ↔ description = none)) := by
  intro description
  have hdescription : description = describeDecorator setting name := describe_at
  have hfixed : isFixed name = true → (setting.decorators.find? name).isSome :=
    isSome_find?_of_isFixed hdecorators
  rw [hdescription]
  refine ⟨fun hname => ⟨fun callee => describe_of_callee hname, ?_⟩, describeDecorator_eq hfixed,
    describeDecorator_eq_none_iff hfixed, ?_⟩
  case refine_1 =>
    intro deeper site arguments
    exact callName_apply setting deeper site name arguments memory
  case refine_2 =>
    intro source tree site children deeper before outcomes after hparse hline hname hwalk hnames
      value format written
    have hwritten := line_apply hparse hline hwalk hnames
    dsimp only at hwritten
    rw [hname, Option.getD_some, decorate_eq] at hwritten
    refine ⟨hwritten, fun hcandid => ?_⟩
    rw [describeDecorator_eq_none_iff hfixed, show written = _ from hwritten]
    exact written_misses_iff hcandid hdecorators site value _ after

/-- It has a name of the table and one of its own. -/
def painter : Host :=
  ⟨[{ name := "painter"
      author := ""
      version := ""
      functions := []
      decorators := [
        ("hex", fun _ bindings => ⟨.returned (.text "#ff"), bindings, 0.0⟩),
        ("shade", fun _ bindings => ⟨.returned (.text "dark"), bindings, 0.0⟩)]
      source := none }], none⟩

theorem painter_candid {name : String} {work : Value → Bindings → Reply Shown}
    (h : painter.decorator? name = some work) (value : Value) (bindings : Bindings) :
    ∃ text, (work value bindings).finish = .returned text := by
  obtain ⟨extension, hextension, hwork⟩ := List.exists_of_findSome?_eq_some h
  cases List.mem_singleton.mp hextension
  obtain ⟨before, after, hentries, -⟩ := List.lookup_eq_some_iff.mp hwork
  have hmem : (name, work) ∈ _ := hentries ▸ List.mem_append_right before List.mem_cons_self
  rcases List.mem_cons.mp hmem with hhex | hshade
  · cases hhex
    exact ⟨_, rfl⟩
  · cases List.mem_singleton.mp hshade
    exact ⟨_, rfl⟩

theorem describe_resolves_painter :
    let registered : List Decorator := [DecoratorTable.bracketing]
    let setting : Setting :=
      ⟨50, .builtin, registered.foldl DecoratorTable.add .builtin, some painter, .still⟩
    let site : Site := ⟨"5 @shade", 0⟩
    let children : List Tree := [.leaf .int ⟨"5", 0⟩, .node .decorator ⟨"@shade", 2⟩
      [.leaf .atSign ⟨"@", 2⟩, .leaf .identifier ⟨"shade", 3⟩]]
    setting.Candid registered ∧ ¬setting.TakenOver "shade" ∧
    describe setting .empty "sqrt" ≠ none ∧
    describe setting .empty ("@" ++ "shade") = some ("@" ++ "shade") ∧
    ¬Attempt.MissesDecorator (line setting (deeperFor setting 0) site children .empty).1 := by
  intro registered setting site children
  have hcandid : setting.Candid registered := by
    refine ⟨fun decorator hdecorator => ?_, fun host hhost name work hwork value bindings => ?_⟩
    · cases List.mem_singleton.mp hdecorator
      exact fun _ _ => .ok _
    · cases hhost
      obtain ⟨text, htext⟩ := painter_candid hwork value bindings
      rw [htext]
      nofun
  have hown : ¬setting.TakenOver "shade" := fun h => Bool.false_ne_true h.2
  have hparse : parse "5 @shade" = .ok (.node .script site [.node .line site children]) := by
    decide +kernel
  have hwalk : walkAll setting (deeperFor setting 0) false children .empty =
      (.ok [⟨.value (.int 5), .default⟩, ⟨.decorator "shade", .default⟩], .empty) := by rfl
  obtain ⟨-, hshade, -, hline⟩ := describe_resolves setting registered rfl .empty "shade"
  obtain ⟨hcalled, -⟩ := (describe_resolves setting registered rfl .empty "sqrt").1 (by decide)
  have hdescription := hshade hown
  refine ⟨hcandid, hown, ?_, hdescription, ?_⟩
  · rw [hcalled _ rfl]
    exact Option.some_ne_none _
  · obtain ⟨-, hmisses⟩ :=
      hline _ _ _ _ _ _ _ _ hparse (List.mem_singleton_self _) rfl hwalk rfl
    rw [hmisses hcandid, hdescription]
    exact Option.some_ne_none _

/-- Help looks into the table first, and the line asks the extension. -/
theorem describe_taken_over :
    let setting : Setting := ⟨50, .builtin, .builtin, some painter, .still⟩
    setting.TakenOver "hex" ∧
    (setting.writer? "hex").map (Writer.help "hex") = some "@hex" ∧
    describe setting .empty "@hex" = some "@hex: Base 16 number formatting, such as 0xFF" ∧
    (evaluate setting "255 @hex" .empty).1.toOption.map (·.text) = some "#ff" := by
  refine ⟨⟨rfl, rfl⟩, rfl, by decide +kernel, by decide +kernel⟩

end Help

end Calculator
