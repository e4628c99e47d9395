import Calculator.Program.Session
import Calculator.Proofs.Evaluation.Tracking

/-!
# Sessions that go on

A session may run any number of scripts. They change its variables and functions only, and a reset
session is as good as a new one.
-/

namespace Calculator.Session

/-- Runs sources one after the other. The world may be another one each time. -/
def evaluateAll (session : Session) (steps : List (World × String)) : Session :=
  steps.foldl (fun session (world, source) => ((session.withWorld world).evaluate source).2)
    session

/-- A new session in the same setting. What chance draws goes on where it is. -/
def renewed (session : Session) : Session :=
  { session with memory := { Memory.empty with draws := session.memory.draws } }

/-- The session as it is if other events came first. -/
def withPast (session : Session) (past : List Event) : Session :=
  { session with memory := session.memory.withPast past }

@[simp] theorem withPast_bindings (session : Session) (past : List Event) :
    (session.withPast past).memory.bindings = session.memory.bindings := rfl

@[simp] theorem withPast_definitions (session : Session) (past : List Event) :
    (session.withPast past).memory.definitions = session.memory.definitions := rfl

/-! ## One script -/

theorem run_eq {α : Type} (session : Session) (evaluation : Evaluation α) :
    session.run evaluation =
      ((evaluation session.memory).1, { session with memory := (evaluation session.memory).2 }) :=
  rfl

theorem evaluate_setting (session : Session) (source : String) :
    (session.evaluate source).2.setting = session.setting := by
  rw [evaluate, run_eq]

theorem evaluate_memory_depth (session : Session) (source : String) :
    (session.evaluate source).2.memory.depth = session.memory.depth := by
  rw [evaluate, run_eq]
  exact evaluate_depth session.setting source session.memory

theorem evaluate_withPast (session : Session) (past : List Event) (source : String) :
    (session.withPast past).evaluate source =
      ((session.evaluate source).1, (session.evaluate source).2.withPast past) := by
  have h : Tracks past False session.memory.depth (Calculator.evaluate session.setting source)
      (Calculator.evaluate session.setting source) := tracks_evaluate_self session.setting source
  have hsame := h.apply_eq.1
  simp only [evaluate, run_eq, withPast, hsame]

/-- A reset leaves nothing but what has been drawn and logged. -/
theorem reset_eq (session : Session) :
    session.reset = session.renewed.withPast session.memory.events := rfl

/-! ## Many scripts -/

theorem evaluateAll_cons (session : Session) (world : World) (source : String)
    (steps : List (World × String)) :
    session.evaluateAll ((world, source) :: steps) =
      ((session.withWorld world).evaluate source).2.evaluateAll steps := rfl

theorem evaluateAll_setting (session : Session) (steps : List (World × String)) :
    (session.evaluateAll steps).setting =
      { session.setting with world := (session.evaluateAll steps).setting.world } := by
  induction steps generalizing session with
  | nil => rfl
  | cons step steps ih =>
    obtain ⟨world, source⟩ := step
    rw [evaluateAll_cons]
    refine (ih _).trans ?_
    rw [evaluate_setting]
    rfl

theorem evaluateAll_depth (session : Session) (steps : List (World × String)) :
    (session.evaluateAll steps).memory.depth = session.memory.depth := by
  induction steps generalizing session with
  | nil => rfl
  | cons step steps ih =>
    obtain ⟨world, source⟩ := step
    rw [evaluateAll_cons, ih, evaluate_memory_depth]
    rfl

theorem valueOf?_constant (memory : Memory) {name : String} (h : isConstant name) :
    memory.valueOf? name = constants.get? name := by
  obtain ⟨value, hvalue⟩ := Option.isSome_iff_exists.mp h
  rw [Memory.valueOf?, Bindings.get?, hvalue, Option.some_or]

/--
After any scripts, whether they fail or not, the constants, the tables, the limit and the extensions
are what they were, and the depth is back. From a reset on, every source does what it does in a new
session.
-/
theorem evaluateAll_discipline (session : Session) (steps : List (World × String)) :
    let used := session.evaluateAll steps
    used.setting = { session.setting with world := used.setting.world } ∧
    (∀ name, isConstant name → used.memory.valueOf? name = constants.get? name) ∧
    used.memory.depth = session.memory.depth ∧
    ∀ source,
      let again := used.reset.evaluate source
      let first := used.renewed.evaluate source
      again.1 = first.1 ∧ again.2.memory.bindings = first.2.memory.bindings ∧
        again.2.memory.definitions = first.2.memory.definitions := by
  intro used
  refine ⟨evaluateAll_setting session steps, ?_, evaluateAll_depth session steps, ?_⟩
  · intro name hname
    exact valueOf?_constant used.memory hname
  · intro source
    simp only [reset_eq, evaluate_withPast, withPast_bindings, withPast_definitions, and_self]

end Calculator.Session
