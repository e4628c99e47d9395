import Calculator.Decorator.Builtins
import Calculator.Proofs.Demand.Evaluation

/-!
# What scripts leave behind

Names that stand for nothing do not outlive their line. Objects have no key twice. Integers stay
within sixty-four bits, as long as the few functions do that can give larger ones.
-/

namespace Calculator

/-- The variables after a run are as demanded, and so are its values if it comes to some. -/
structure Leaves (demand : Demand) (run : Attempt ScriptResult × Memory) : Prop where
  memory : run.2.Meets demand
  values : ∀ result, run.1 = .ok result → result.Meets demand

variable {demand : Demand} {setting : Setting} {behaviour : Function → Behaviour}

theorem Setting.behavingAs_behavingAs (setting : Setting) (first second : Function → Behaviour) :
    (setting.behavingAs first).behavingAs second =
      setting.behavingAs fun function => second (function.behavingAs first) := by
  unfold Setting.behavingAs
  simp only [List.map_map]
  rfl

/-- Without a refusal, both runs are the same. -/
theorem Guards.leaves (hguards : Guards demand none setting behaviour) (source : String)
    {memory : Memory} (hmemory : memory.Meets demand) :
    Leaves demand (evaluate setting source memory) ∧
      evaluate (setting.behavingAs behaviour) source memory = evaluate setting source memory := by
  rcases Obeys.evaluate hguards source memory hmemory with ⟨_, hnone, -⟩ | ⟨hsame, hafter, hvalues⟩
  · cases hnone
  · exact ⟨⟨hafter, hvalues⟩, hsame⟩

/-! ## Names that stand for nothing -/

def Call.isResolved (call : Call) : Bool :=
  call.arguments.slots.all fun slot => slot.2.all (·.meets .resolved)

theorem Call.isResolved_iff {call : Call} : call.isResolved = true ↔ call.Meets .resolved := by
  simp only [isResolved, List.all_eq_true]
  rfl

/-- Another function answers the calls with names that stand for nothing among the arguments. -/
def divert (instead f : Call → Attempt Value) (call : Call) : Attempt Value :=
  if call.isResolved then f call else instead call

/-- Help, and functions that run scripts, stay as they are. -/
def Behaviour.diverted (instead : Call → Attempt Value) : Behaviour → Behaviour
  | compute f => compute (divert instead f)
  | consult f => consult fun world => divert instead (f world)
  | draw f => draw fun drawn => divert instead (f drawn)
  | help => help
  | run => run
  | runFile => runFile

theorem KeepsCalls.follows_divert {f : Call → Attempt Value} (h : KeepsCalls .resolved f)
    (instead : Call → Attempt Value) : FollowsCalls .resolved none f (divert instead f) := by
  intro call hcall
  exact .inr ⟨if_pos (Call.isResolved_iff.mpr hcall), h call hcall⟩

theorem Behaviour.Keeps.follows_diverted {behaviour : Behaviour}
    (h : behaviour.Keeps .resolved) (instead : Call → Attempt Value) :
    behaviour.Follows .resolved none (behaviour.diverted instead) := by
  cases behaviour with
  | compute f => exact .compute (KeepsCalls.follows_divert h instead)
  | consult f => exact .consult fun world => KeepsCalls.follows_divert (h world) instead
  | draw f => exact .draw fun drawn => KeepsCalls.follows_divert (h drawn) instead
  | help => exact .help
  | run => exact .run
  | runFile => exact .runFile

/--
With the functions that are always there, no name that stands for nothing outlives its line. Help
apart, no function gets to see one: whatever else the functions did, it would make no difference
what they answer to such names.
-/
theorem evaluate_resolved (setting : Setting) (hfunctions : setting.functions = .builtin)
    (hhost : setting.host = none) (source : String) (memory : Memory)
    (hmemory : memory.Meets .resolved) :
    Leaves .resolved (evaluate setting source memory) ∧
      ∀ behaviour : Function → Behaviour, (∀ function, (behaviour function).Keeps .resolved) →
        (∀ function, function.name = "help" → behaviour function = .help) →
        ∀ instead,
          evaluate (setting.behavingAs fun function => (behaviour function).diverted instead) source
            memory = evaluate (setting.behavingAs behaviour) source memory := by
  constructor
  · have hguards : Guards .resolved none setting (·.behaviour) := by
      refine ⟨?_, by simp [hhost], fun _ => ⟨hhost, ?_⟩⟩
      · intro function hfunction
        rw [hfunctions] at hfunction
        exact (FunctionTable.builtin_keeps hfunction (by rintro ⟨⟩)).follows
      · rw [hfunctions]
        exact ⟨_, rfl, rfl⟩
    exact (hguards.leaves source hmemory).1
  · intro behaviour hkeeps hhelp instead
    have hguards : Guards .resolved none (setting.behavingAs behaviour)
        (·.behaviour.diverted instead) := by
      refine ⟨?_, by simp [hhost], fun _ => ⟨hhost, ?_⟩⟩
      · intro function hfunction
        obtain ⟨original, -, rfl⟩ := List.mem_map.mp hfunction
        exact (hkeeps original).follows_diverted instead
      · rw [Setting.find?_behavingAs, hfunctions]
        exact ⟨_, rfl, hhelp _ rfl⟩
    have hsame := (hguards.leaves source hmemory).2
    rw [Setting.behavingAs_behavingAs] at hsame
    exact hsame

/-- The name that the conditional comes to gets no further than the assignment. -/
theorem evaluate_resolved_ternary :
    let setting : Setting := ⟨50, .builtin, .builtin, none, .still⟩
    let memory : Memory := { Memory.empty with bindings := [("x", .array [.int 1])] }
    let source := "help(sin)\nx[0] = x ? y : len(2)"
    let agreeing : Function → Behaviour := fun function =>
      if function.name = "help" then .help else .compute fun _ => .ok (.bool true)
    memory.Meets .resolved ∧ Leaves .resolved (evaluate setting source memory) ∧
      ∀ instead,
        evaluate (setting.behavingAs fun function => (agreeing function).diverted instead) source
          memory = evaluate (setting.behavingAs agreeing) source memory := by
  intro setting memory source agreeing
  have hmemory : memory.Meets .resolved := List.forall_mem_singleton.mpr rfl
  obtain ⟨hleaves, hblind⟩ := evaluate_resolved setting rfl rfl source memory hmemory
  refine ⟨hmemory, hleaves, hblind agreeing ?_ fun function hname => if_pos hname⟩
  intro function
  simp only [agreeing]
  split
  · trivial
  · exact fun _ _ => .ok rfl

/-! ## Keys -/

/--
No object that a script makes has a key twice, whatever functions a host adds that make no such
object either.
-/
theorem evaluate_distinctKeys (setting : Setting)
    (hfunctions : ∀ function ∈ setting.functions.functions,
      function ∈ FunctionTable.builtin.functions ∨ function.behaviour.Keeps .distinctKeys)
    (hhost : ∀ host ∈ setting.host, host.Keeps .distinctKeys) (source : String) (memory : Memory)
    (hmemory : memory.Meets .distinctKeys) :
    Leaves .distinctKeys (evaluate setting source memory) := by
  have hguards : Guards .distinctKeys none setting (·.behaviour) := by
    refine ⟨?_, hhost, by rintro ⟨⟩⟩
    intro function hfunction
    rcases hfunctions function hfunction with hbuiltin | hkeeps
    · exact (FunctionTable.builtin_keeps hbuiltin (by rintro ⟨⟩)).follows
    · exact hkeeps.follows
  exact (hguards.leaves source hmemory).1

/-- A host whose only function gives a table of truths. -/
def truthHost : Host :=
  ⟨[{ name := "truths"
      author := ""
      version := ""
      functions := [("truths", fun _ bindings =>
        ⟨.returned (.dict [(.bool true, .int 1), (.bool false, .int 0)]), bindings, 0.0⟩)]
      decorators := []
      source := none }], none⟩

theorem truthHost_keeps (demand : Demand) : truthHost.Keeps demand := by
  constructor
  case functions =>
    intro name function hfunction arguments bindings _ hbindings
    have hlookup : truthHost.function? name =
        if name == "truths" then truthHost.function? "truths" else none := by
      simp only [Host.function?, truthHost, List.findSome?_cons, List.lookup_cons]
      cases name == "truths" <;> rfl
    rw [hlookup] at hfunction
    split at hfunction
    · cases hfunction
      refine ⟨hbindings, ?_⟩
      rintro plain ⟨⟩ value ⟨⟩
      cases demand <;> decide +kernel
    · cases hfunction
  case decorators =>
    intro name decorator hdecorator
    cases hdecorator

theorem evaluate_distinctKeys_host :
    let setting : Setting := ⟨50, .builtin, .builtin, some truthHost, .still⟩
    let memory : Memory :=
      { Memory.empty with bindings := [("x", .object [(.int 1, .none), (.int 2, .none)])] }
    memory.Meets .distinctKeys ∧
      Leaves .distinctKeys (evaluate setting "x[true] = merge(x, truths())" memory) := by
  intro setting memory
  have hmemory : memory.Meets .distinctKeys := List.forall_mem_singleton.mpr (by decide +kernel)
  refine ⟨hmemory, evaluate_distinctKeys setting (fun _ => .inl) ?_ _ memory hmemory⟩
  rintro host ⟨⟩
  exact truthHost_keeps _

/-! ## Integers -/

/-- Refuses to give an integer of more than sixty-four bits. -/
def refuseOverflow (refusal : Failure) (f : Call → Attempt Value) (call : Call) : Attempt Value :=
  match f call with
  | .ok value => if value.meets .inRange then .ok value else .error refusal
  | .error failure => .error failure

theorem refuseOverflow_follows (refusal : Failure) (f : Call → Attempt Value) :
    FollowsCalls .inRange (some refusal) f (refuseOverflow refusal f) := by
  intro call _
  unfold refuseOverflow
  cases f call with
  | error failure => exact .inr ⟨rfl, .error⟩
  | ok value =>
    dsimp only
    split
    case isTrue hvalue => exact .inr ⟨rfl, .ok hvalue⟩
    case isFalse => exact .inl ⟨refusal, rfl, rfl⟩

/-- Only the functions that can give integers of any size are watched. -/
def Function.watched (refusal : Failure) (function : Function) : Behaviour :=
  if function.isUnbounded then
    match function.behaviour with
    | .compute f => .compute (refuseOverflow refusal f)
    | .consult f => .consult fun world => refuseOverflow refusal (f world)
    | .draw f => .draw fun drawn => refuseOverflow refusal (f drawn)
    | behaviour => behaviour
  else function.behaviour

theorem Function.follows_watched {function : Function}
    (h : function ∈ FunctionTable.builtin.functions) (refusal : Failure) :
    function.behaviour.Follows .inRange (some refusal) (function.watched refusal) := by
  unfold Function.watched
  split
  case isTrue =>
    split
    case h_1 f heq =>
      rw [heq]
      exact .compute (refuseOverflow_follows refusal f)
    case h_2 f heq =>
      rw [heq]
      exact .consult fun world => refuseOverflow_follows refusal (f world)
    case h_3 f heq =>
      rw [heq]
      exact .draw fun drawn => refuseOverflow_follows refusal (f drawn)
    case h_4 hcompute hconsult hdraw =>
      have hkeeps : function.behaviour.Keeps .inRange := by
        cases heq : function.behaviour with
        | compute f => exact absurd heq (hcompute f)
        | consult f => exact absurd heq (hconsult f)
        | draw f => exact absurd heq (hdraw f)
        | help | run | runFile => trivial
      exact hkeeps.follows
  case isFalse hbounded =>
    exact (FunctionTable.builtin_keeps h fun _ => Bool.not_eq_true _ ▸ hbounded).follows

/--
Whatever a script does, integers stay in range, unless one of the six functions that can give larger
ones does so: if these functions refused instead, the script would end with the refusal.
-/
theorem evaluate_inRange (setting : Setting) (hfunctions : setting.functions = .builtin)
    (hhost : setting.host = none) (refusal : Failure) (source : String) (memory : Memory)
    (hmemory : memory.Meets .inRange) :
    (evaluate (setting.behavingAs (·.watched refusal)) source memory).1 = .error refusal ∨
      Leaves .inRange (evaluate setting source memory) := by
  have hguards : Guards .inRange (some refusal) setting (·.watched refusal) := by
    refine ⟨?_, by simp [hhost], by rintro ⟨⟩⟩
    intro function hfunction
    rw [hfunctions] at hfunction
    exact Function.follows_watched hfunction refusal
  rcases Obeys.evaluate hguards source memory hmemory with ⟨_, ⟨⟩, hrefused⟩ | ⟨-, hafter, hvalues⟩
  · exact .inl hrefused
  · exact .inr ⟨hafter, hvalues⟩

/-- The function that is watched has nothing to refuse here. -/
theorem evaluate_inRange_int :
    let setting : Setting := ⟨50, .builtin, .builtin, none, .still⟩
    let memory : Memory := { Memory.empty with bindings := [("x", .int 3)] }
    memory.Meets .inRange ∧ Leaves .inRange (evaluate setting "x = int('12') ** x" memory) := by
  intro setting memory
  have hmemory : memory.Meets .inRange := List.forall_mem_singleton.mpr (by decide)
  refine ⟨hmemory, ?_⟩
  rcases evaluate_inRange setting rfl rfl (.error .overflow none) "x = int('12') ** x" memory
    hmemory with hrefused | hleaves
  · have hfine : (evaluate (setting.behavingAs (·.watched (.error .overflow none)))
        "x = int('12') ** x" memory).1.toOption.isSome = true := by decide +kernel
    rw [hrefused] at hfine
    cases hfine
  · exact hleaves

/-- Text is read without bounds when it holds nothing but digits. -/
theorem evaluate_beyond_range :
    let setting : Setting := ⟨50, .builtin, .builtin, none, .still⟩
    Memory.empty.Meets .inRange ∧
      (evaluate setting "int('9223372036854775808')" .empty).1.toOption.map
        (fun result => result.value.meets .inRange) = some false := by
  intro setting
  exact ⟨List.forall_mem_nil _, by decide +kernel⟩

end Calculator
