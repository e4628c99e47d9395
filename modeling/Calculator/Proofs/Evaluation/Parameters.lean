import Calculator.Proofs.Evaluation.Expression
import Calculator.Proofs.Evaluation.Frame
import Calculator.Proofs.Grammar.Rereading

/-!
# What parameters stand for

In the body of a function, a parameter is a variable with the argument in it, and it is read as one
unless the script gives it another value. Constants come before variables, so a parameter that is
called like a constant cannot be read.
-/

namespace Calculator

open Grammar Evaluation

/-- No extension and no table has a function of the name. -/
structure Setting.Leaves (setting : Setting) (name : String) : Prop where
  table : setting.functions.find? name = none
  host : ∀ host ∈ setting.host, host.function? name = none

/-- A function without two parameters of one name is called with the argument for the parameter. -/
structure Definition.Receives (definition : Definition) (arguments : List Value) (name : String)
    (argument : Value) : Prop where
  distinct : definition.parameters.Nodup
  length : arguments.length = definition.parameters.length
  bound : (name, argument) ∈ definition.parameters.zip arguments

namespace Evaluation

variable {setting : Setting} {deeper : Deeper} {name : String} {site : Site}
  {memory between : Memory} {tree : Tree}

/-! ## Parameters -/

/-- Several variables at once, one after the other. -/
def putAll (bindings : Bindings) (entries : List (String × Value)) : Bindings :=
  entries.foldl (fun bindings (name, value) => bindings.put name value) bindings

theorem get?_putAll_of_notMem {entries : List (String × Value)} (h : name ∉ entries.map (·.1))
    (bindings : Bindings) : (putAll bindings entries).get? name = bindings.get? name := by
  induction entries generalizing bindings with
  | nil => rfl
  | cons entry entries ih =>
    rw [List.map_cons, List.mem_cons, not_or] at h
    rw [putAll, List.foldl_cons]
    exact (ih h.2 _).trans (Named.lookup_put_of_ne h.1 _ _)

theorem get?_putAll {entries : List (String × Value)} (hdistinct : (entries.map (·.1)).Nodup)
    {value : Value} (h : (name, value) ∈ entries) (bindings : Bindings) :
    (putAll bindings entries).get? name = some value := by
  induction entries generalizing bindings with
  | nil => cases h
  | cons entry entries ih =>
    obtain ⟨hnew, hdistinct⟩ := List.nodup_cons.mp hdistinct
    rw [putAll, List.foldl_cons]
    rcases List.mem_cons.mp h with rfl | h
    · exact (get?_putAll_of_notMem hnew _).trans (Named.lookup_put_self _ _ _)
    · exact ih hdistinct h _

variable {definition : Definition} {arguments : List Value} {argument : Value}

/-- A called function starts with its arguments under the names of its parameters. -/
theorem get?_enter (h : definition.Receives arguments name argument) (memory : Memory) :
    (enter definition arguments memory).bindings.get? name = some argument := by
  have hentries : (definition.parameters.zip arguments).map (·.1) = definition.parameters :=
    List.map_fst_zip h.length.ge
  exact get?_putAll (by rw [hentries]; exact h.distinct) h.bound memory.bindings

/-- A parameter that is not called like a constant is read as the variable that it is. -/
theorem walk_variable {value : Value} (hconstant : isConstant site.text = false)
    (h : memory.bindings.get? site.text = some value) :
    walk setting deeper (.leaf .identifier site) memory =
      (.ok (Outcome.ofValue value), memory) := by
  change (Outcome.ofValue <$> valueOf site.text) memory = _
  rw [map_apply]
  have hvalue : valueOf site.text memory = (.ok value, memory) := by
    change (Except.ok ((memory.valueOf? site.text).getD (.name site.text)), memory) = _
    rw [valueOf?_variable hconstant, h, Option.getD_some]
  rw [hvalue]
  rfl

/-- In a body, a parameter is its argument until something else is written under its name. -/
theorem walk_parameter (h : definition.Receives arguments site.text argument)
    (hconstant : isConstant site.text = false) {place : Place}
    (harrive : arrive setting deeper place tree (enter definition arguments memory) =
      some (.leaf .identifier site, between))
    (hbefore : ∀ doing, DoesBefore setting deeper place tree (enter definition arguments memory)
      doing → ¬doing.Writes setting deeper site.text) :
    walk setting deeper (.leaf .identifier site) between =
      (.ok (Outcome.ofValue argument), between) := by
  apply walk_variable hconstant
  rw [arrive_get? harrive hbefore]
  exact get?_enter h memory

/-! ## Functions that give back a parameter -/

/-- A body that is a name is the only line of its text. -/
theorem parse_of_name {source : String} {children : List Tree} {body : Site}
    (h : parse source = .ok tree) (hmem : .node .definition site children ∈ tree.subtrees)
    (hbody : children.getLast? = some (.leaf .identifier body)) :
    parse body.text = .ok (.node .script ⟨body.text, 0⟩ [.node .line ⟨body.text, 0⟩
      [.leaf .identifier ⟨body.text, 0⟩]]) := by
  obtain ⟨before, after, more, sketch, others, e, hlex, rfl, he, hrest, hparts⟩ :=
    definition_of_parse h hmem
  have hsketch : Tree.ofSketch source.toList.toArray sketch = .leaf .identifier body := by
    rw [Tree.ofSketches_eq, List.map_cons, List.reverse_cons, List.append_nil,
      List.getLast?_concat] at hbody
    exact Option.some.inj hbody
  have htokens : (Tree.ofSketch source.toList.toArray sketch).tokens = sketch.leaves :=
    tokens_ofSketch sketch
  have hleaves : sketch.leaves = [⟨.identifier, body⟩] := by
    rw [← htokens, hsketch]
    rfl
  have hoctal : ∀ token ∈ sketch.leaves.getLast?, token.isBareOctal = false := by
    rw [hleaves]
    rintro _ ⟨⟩
    rfl
  obtain ⟨text, offset, alone, hsite, hshift, hparse⟩ := parse_alone hlex he hrest hparts hoctal
  rw [hsketch] at hshift
  obtain ⟨kind, place⟩ | ⟨rule, place, parts⟩ := alone
  · cases hshift
    cases hsite
    exact hparse
  · cases hshift

theorem callName_definition (hleaves : setting.Leaves name)
    (hdefinition : memory.definitions.lookup name = some definition) (site : Site)
    (arguments : List Value) :
    callName setting deeper site name arguments memory =
      callDefinition setting deeper site definition arguments memory := by
  have hhost : (setting.host.filter fun host => (host.function? name).isSome) = none := by
    rw [Option.filter_eq_none_iff]
    intro host hmem
    rw [hleaves.host host hmem]
    exact nofun
  unfold callName
  rw [get_bind_apply, hhost, hleaves.table, hdefinition]

/-- A script that is the name of a variable comes to its value and leaves all as it is. -/
theorem evaluate_of_variable {source : String} {value : Value}
    (hparse : parse source = .ok (.node .script ⟨source, 0⟩ [.node .line ⟨source, 0⟩
      [.leaf .identifier ⟨source, 0⟩]]))
    (hconstant : isConstant source = false) (hvalue : memory.bindings.get? source = some value)
    (hname : value.name? = none)
    (hdefault : setting.decorators.find? "default" = DecoratorTable.builtin.find? "default") :
    ((·.value) <$> evaluate setting source) memory = (.ok value, memory) := by
  have hwalk : walk setting (deeperFor setting memory.depth) (.leaf .identifier ⟨source, 0⟩)
      memory = (.ok (Outcome.ofValue value), memory) := walk_variable hconstant hvalue
  rw [map_apply, evaluate_of_value hparse rfl hname hwalk, call_default hdefault]
  rfl

/-- A function whose body is one of its parameters gives back the argument. -/
theorem callName_parameter
    (hbody : parse definition.body = .ok (.node .script ⟨definition.body, 0⟩
      [.node .line ⟨definition.body, 0⟩ [.leaf .identifier ⟨definition.body, 0⟩]]))
    (h : definition.Receives arguments definition.body argument)
    (hconstant : isConstant definition.body = false) (hname : argument.name? = none)
    (hleaves : setting.Leaves definition.name)
    (hdefault : setting.decorators.find? "default" = DecoratorTable.builtin.find? "default")
    (hdefinition : memory.definitions.lookup definition.name = some definition)
    (hdepth : memory.depth + 1 < setting.maxDepth) (call : Site) :
    ∃ events, callName setting (deeperFor setting memory.depth) call definition.name arguments
      memory = (.ok argument, { memory with events := events }) := by
  let start := enter definition arguments memory
  have hrun : deeperFor setting memory.depth definition.body start = (.ok argument, start) := by
    rw [deeperFor_apply rfl hdepth definition.body]
    exact evaluate_of_variable hbody hconstant (get?_enter h memory) hname hdefault
  rw [callName_definition hleaves hdefinition, callDefinition_apply,
    if_neg (not_not.mpr h.length), if_neg (Nat.not_le.mpr hdepth)]
  refine ⟨start.events, ?_⟩
  change ((deeperFor setting memory.depth definition.body start).1,
    memory.catchUp (deeperFor setting memory.depth definition.body start).2) = _
  rw [hrun]
  rfl

theorem lookup_define {children : List Tree} {head body : Tree}
    (hhead : children.head? = some head) (hbody : children.getLast? = some body) (site : Site)
    (memory : Memory) :
    (define site children memory).2.definitions.lookup head.input =
      some ⟨head.input, parametersOf (children.drop 2), body.input⟩ := by
  unfold define
  rw [hhead, hbody]
  exact Named.lookup_put_self _ _ _

end Evaluation

/--
A function that gives back a parameter gives back the argument, whatever its caller has in its
variables. In any body, a parameter is read as the argument wherever the walk arrives at it, as long
as nothing has been written under its name before. Only a parameter that is called like a constant
is never read.
-/
theorem parameters_are_arguments (setting : Setting) :
    (∀ source tree site children head body, parse source = .ok tree →
      .node .definition site children ∈ tree.subtrees → children.head? = some head →
      children.getLast? = some (.leaf .identifier body) →
      let definition : Definition := ⟨head.input, parametersOf (children.drop 2), body.text⟩
      (∀ deeper memory, (walk setting deeper (.node .definition site children)
        memory).2.definitions.lookup definition.name = some definition) ∧
      ∀ arguments argument, definition.Receives arguments body.text argument →
        isConstant body.text = false → argument.name? = none → setting.Leaves definition.name →
        setting.decorators.find? "default" = DecoratorTable.builtin.find? "default" →
        ∀ memory : Memory, memory.definitions.lookup definition.name = some definition →
          memory.depth + 1 < setting.maxDepth → ∀ call, ∃ events,
            callName setting (deeperFor setting memory.depth) call definition.name arguments
              memory = (.ok argument, { memory with events := events })) ∧
    ∀ (definition : Definition) arguments name argument,
      definition.Receives arguments name argument → isConstant name = false →
      ∀ memory, let start := enter definition arguments memory
      ∀ deeper body place site between,
        arrive setting deeper place body start = some (.leaf .identifier site, between) →
        site.text = name →
        (∀ doing, DoesBefore setting deeper place body start doing →
          ¬doing.Writes setting deeper name) →
        walk setting deeper (.leaf .identifier site) between =
          (.ok (Outcome.ofValue argument), between) := by
  constructor
  case left =>
    intro source tree site children head body hparse hmem hhead hbody definition
    refine ⟨fun deeper memory => ?_, ?_⟩
    · rw [walk, map_apply]
      exact lookup_define hhead hbody site memory
    intro arguments argument hreceives hconstant hname hleaves hdefault memory hdefinition hdepth
    have halone : parse definition.body = .ok _ := parse_of_name hparse hmem hbody
    exact callName_parameter halone hreceives hconstant hname hleaves hdefault hdefinition hdepth
  case right =>
    rintro definition arguments _ argument hreceives hconstant memory start deeper body place site
      between harrive rfl hbefore
    exact walk_parameter hreceives hconstant harrive hbefore

/-- A leaf does nothing. -/
theorem not_does_leaf {setting : Setting} {deeper : Deeper} {kind : Terminal} {site : Site}
    {memory : Memory} {doing : Doing} : ¬Does setting deeper (.leaf kind site) memory doing := by
  intro h
  cases h with
  | inside next _ => cases next

/-- The caller has another `y`, and the second body reads its parameter before it changes it. -/
theorem parameters_are_arguments_twice :
    let setting : Setting := ⟨50, .builtin, .builtin, none, .still⟩
    let memory : Memory := { Memory.empty with
      bindings := [("y", .int 7)], definitions := [("f", ⟨"f", ["x", "y"], "y"⟩)] }
    let increment : Definition := ⟨"g", ["x"], "x = x + 1"⟩
    let body : Tree := .node .line ⟨"x = x + 1", 0⟩ [.node .assignment ⟨"x = x + 1", 0⟩
      [.leaf .identifier ⟨"x", 0⟩, .leaf .equal ⟨"=", 2⟩, .node .sum ⟨"x + 1", 4⟩
        [.leaf .identifier ⟨"x", 4⟩, .leaf .plus ⟨"+", 6⟩, .leaf .int ⟨"1", 8⟩]]]
    let start := enter increment [.int 5] memory
    (∃ tree site children, parse "f(x, y) = y" = .ok tree ∧
      .node .definition site children ∈ tree.subtrees ∧ ∃ events,
        callName setting (deeperFor setting 0) ⟨"f(1, 2)", 0⟩ "f" [.int 1, .int 2] memory =
          (.ok (.int 2), { memory with events := events })) ∧
    parse "x = x + 1" = .ok (.node .script ⟨"x = x + 1", 0⟩ [body]) ∧
    arrive setting (deeperFor setting 1) [0, 2, 0] body start =
      some (.leaf .identifier ⟨"x", 4⟩, start) ∧
    walk setting (deeperFor setting 1) (.leaf .identifier ⟨"x", 4⟩) start =
      (.ok (Outcome.ofValue (.int 5)), start) := by
  intro setting memory increment body start
  obtain ⟨hcalls, hreads⟩ := parameters_are_arguments setting
  refine ⟨?_, by decide +kernel, rfl, ?_⟩
  · let children : List Tree := [.leaf .identifier ⟨"f", 0⟩, .leaf .lpar ⟨"(", 1⟩,
      .leaf .identifier ⟨"x", 2⟩, .leaf .comma ⟨",", 3⟩, .leaf .identifier ⟨"y", 5⟩,
      .leaf .rpar ⟨")", 6⟩, .leaf .equal ⟨"=", 8⟩, .leaf .identifier ⟨"y", 10⟩]
    let tree : Tree := .node .script ⟨"f(x, y) = y", 0⟩ [.node .line ⟨"f(x, y) = y", 0⟩
      [.node .definition ⟨"f(x, y) = y", 0⟩ children]]
    have hparse : parse "f(x, y) = y" = .ok tree := by decide +kernel
    have hmem : .node .definition ⟨"f(x, y) = y", 0⟩ children ∈ tree.subtrees := by
      decide +kernel
    have hreceives : Definition.Receives ⟨"f", ["x", "y"], "y"⟩ [.int 1, .int 2] "y" (.int 2) :=
      ⟨by decide, rfl, by simp⟩
    refine ⟨tree, _, children, hparse, hmem, ?_⟩
    exact (hcalls _ tree _ children _ _ hparse hmem rfl rfl).2 _ _ hreceives rfl rfl ⟨rfl, nofun⟩
      rfl memory rfl (by decide) _
  · have hreceives : increment.Receives [.int 5] "x" (.int 5) :=
      ⟨by decide, rfl, by simp [increment]⟩
    refine hreads increment _ "x" _ hreceives rfl memory _ body [0, 2, 0] _ _ rfl rfl ?_
    intro doing hdoing
    cases hdoing with
    | beside earlier => exact absurd earlier (Nat.not_lt_zero _)
    | inside next hdoing =>
      cases next
      cases hdoing with
      | @beside _ j _ _ _ _ _ _ earlier next done =>
        match j, earlier with
        | 0, _ => cases next
        | 1, _ =>
          cases next
          exact absurd done not_does_leaf
      | inside next hdoing =>
        cases next
        cases hdoing with
        | beside earlier => exact absurd earlier (Nat.not_lt_zero _)
        | inside next hdoing => cases hdoing

/-- The constant is read, although the function has been called with something else. -/
theorem parameter_hidden_by_constant :
    let setting : Setting := ⟨50, .builtin, .builtin, none, .still⟩
    let definition : Definition := ⟨"f", ["pi"], "pi"⟩
    (evaluate setting "f(pi) = pi" .empty).2.definitions.lookup "f" = some definition ∧
    definition.Receives [.int 5] "pi" (.int 5) ∧
    (evaluate setting "f(pi) = pi\nf(5)" .empty).1.toOption.map (·.text) =
      some "pi\n3.14159265" := by
  intro setting definition
  refine ⟨by decide +kernel, ⟨by decide, rfl, by simp [definition]⟩, by decide +kernel⟩

end Calculator
