import Calculator.Proofs.Evaluation.Tracking

/-!
# How deep scripts go

A script may start others: it calls functions of its own, runs texts and runs files. Each of them
starts one level deeper, below the limit, and so all of them come to an end.
-/

namespace Calculator

open Grammar Evaluation

variable {setting : Setting} {may : Deed → Prop} {α : Type}

/-- A script that starts, and the memory that it starts with. -/
structure Start where
  source : String
  memory : Memory

abbrev Ending := Attempt ScriptResult × Memory

/-- What a script that has started another one gets from it. -/
def Ending.answer (ending : Ending) : Attempt Value × Memory :=
  ((·.value) <$> ending.1, ending.2)

/-- A way to run scripts that gives the endings of a list of starts. -/
def Answers (deeper : Deeper) (nested : List Start) (ending : Start → Ending) : Prop :=
  ∀ inner ∈ nested, deeper inner.source inner.memory = (ending inner).answer

/-- All of them start one level below a depth, and below the limit. -/
def OneBelow (setting : Setting) (depth : Nat) (nested : List Start) : Prop :=
  ∀ inner ∈ nested,
    inner.memory.depth = depth + 1 ∧ inner.memory.depth < setting.maxDepth

theorem OneBelow.nil (setting : Setting) (depth : Nat) : OneBelow setting depth [] := by
  intro inner hinner
  cases hinner

theorem OneBelow.append {depth : Nat} {nested nested' : List Start}
    (h : OneBelow setting depth nested) (h' : OneBelow setting depth nested') :
    OneBelow setting depth (nested ++ nested') := by
  intro inner hinner
  rcases List.mem_append.mp hinner with hinner | hinner
  · exact h inner hinner
  · exact h' inner hinner

/--
A script finishes when the scripts that it starts do. It starts finitely many, each of them one
level deeper and below the limit, and their endings settle its own.
-/
inductive Finishes (setting : Setting) : Start → Ending → Prop
  | script {start : Start} {ending : Ending} (nested : List Start) (inside : Start → Ending)
      (below : OneBelow setting start.memory.depth nested)
      (finishes : ∀ inner ∈ nested, Finishes setting inner (inside inner))
      (settled : ∀ deeper, Answers deeper nested inside →
        script setting deeper start.source start.memory = ending) : Finishes setting start ending

/-! ## The scripts that a script starts -/

/-- Runs a source as a script and keeps its value. -/
def valueIn (setting : Setting) : Deeper := fun source => (·.value) <$> evaluate setting source

theorem valueIn_apply (setting : Setting) (source : String) (memory : Memory) :
    valueIn setting source memory = Ending.answer (evaluate setting source memory) :=
  map_apply _ _ memory

/-- A computation depends on finitely many scripts, all of them one level deeper. -/
def Settled (setting : Setting) (memory : Memory) (e : Deeper → Evaluation α) : Prop :=
  ∃ nested, OneBelow setting memory.depth nested ∧
    ∀ deeper, Answers deeper nested (fun inner => evaluate setting inner.source inner.memory) →
      e deeper memory = e (valueIn setting) memory

namespace Settled

variable {memory : Memory} {β : Type}

theorem const (e : Evaluation α) : Settled setting memory fun _ => e :=
  ⟨[], .nil setting memory.depth, fun _ _ => rfl⟩

theorem bind {e : Deeper → Evaluation α} {f : α → Deeper → Evaluation β}
    (h : Settled setting memory e)
    (hback : (e (valueIn setting) memory).2.depth = memory.depth)
    (hnext : ∀ a after, after.depth = memory.depth → Settled setting after (f a)) :
    Settled setting memory fun deeper => e deeper >>= fun a => f a deeper := by
  obtain ⟨nested, hbelow, hsame⟩ := h
  rcases hfirst : e (valueIn setting) memory with ⟨failure | a, after⟩
  case error =>
    refine ⟨nested, hbelow, fun deeper hanswers => ?_⟩
    simp only [bind_apply, hsame deeper hanswers, hfirst]
  case ok =>
    rw [hfirst] at hback
    obtain ⟨nested', hbelow', hsame'⟩ := hnext a after hback
    rw [hback] at hbelow'
    refine ⟨nested ++ nested', hbelow.append hbelow', fun deeper hanswers => ?_⟩
    have hanswers' := List.forall_mem_append.mp hanswers
    simp only [bind_apply, hsame deeper hanswers'.1, hfirst]
    exact hsame' deeper hanswers'.2

/-- Only one script is started, and the computation uses nothing but its answer. -/
theorem single {e : Deeper → Evaluation α} (inner : Start)
    (hdepth : inner.memory.depth = memory.depth + 1)
    (hlimit : inner.memory.depth < setting.maxDepth)
    (huses : ∀ deeper deeper' : Deeper,
      deeper inner.source inner.memory = deeper' inner.source inner.memory →
        e deeper memory = e deeper' memory) : Settled setting memory e := by
  refine ⟨[inner], ?_, fun deeper hanswers => ?_⟩
  · intro start hstart
    rw [List.mem_singleton.mp hstart]
    exact ⟨hdepth, hlimit⟩
  · apply huses
    rw [valueIn_apply]
    exact hanswers inner (List.mem_singleton.mpr rfl)

theorem runNested (site : Site) (source : String) :
    Settled setting memory fun deeper => Evaluation.runNested setting deeper site source := by
  by_cases hlimit : setting.maxDepth ≤ memory.depth + 1
  · refine ⟨[], .nil setting memory.depth, fun deeper _ => ?_⟩
    simp only [runNested_apply, if_pos hlimit]
  · apply Settled.single ⟨source, memory.descend⟩ rfl (Nat.lt_of_not_le hlimit)
    intro deeper deeper' hsame
    simp only [runNested_apply, if_neg hlimit, oneDeeper, hsame]

theorem callDefinition (site : Site) (definition : Definition) (arguments : List Value) :
    Settled setting memory fun deeper =>
      Evaluation.callDefinition setting deeper site definition arguments := by
  by_cases hlimit : setting.maxDepth ≤ memory.depth + 1
  · refine ⟨[], .nil setting memory.depth, fun deeper _ => ?_⟩
    simp only [callDefinition_apply, if_pos hlimit]
  · apply Settled.single ⟨definition.body, enter definition arguments memory⟩ rfl
      (Nat.lt_of_not_le hlimit)
    intro deeper deeper' hsame
    simp only [callDefinition_apply, if_neg hlimit, apart, hsame]

end Settled

theorem tracks_valueIn (setting : Setting) (depth : Nat) (source : String) :
    Tracks [] False depth (valueIn setting source) (valueIn setting source) := by
  unfold valueIn
  exact (tracks_evaluate_self setting source).map _

theorem Stepwise.settled {e : Nat → Deeper → Evaluation α} (h : Stepwise setting may e)
    (memory : Memory) : Settled setting memory (e setting.maxDepth) := by
  induction h generalizing memory with
  | attempt | draw | note | put | define | visit => exact .const _
  | bind first _ ihfirst ihnext =>
    have hback := first.tracks (Nat.le_refl setting.maxDepth) (by omega)
      fun _ source => tracks_valueIn setting (memory.depth + 1) source
    exact .bind (ihfirst memory) hback.apply_eq.2 fun a after _ => ihnext a after
  | look _ _ ih => exact ih memory memory
  | nested _ _ _ site source => exact .runNested site source
  | call site definition arguments => exact .callDefinition site definition arguments

theorem settled_script (setting : Setting) (source : String) (memory : Memory) :
    Settled setting memory fun deeper => script setting deeper source :=
  (Stepwise.anyScript setting source).settled memory

theorem evaluate_eq_script (setting : Setting) (source : String) (memory : Memory) :
    evaluate setting source memory = script setting (valueIn setting) source memory := by
  obtain ⟨nested, hbelow, hsame⟩ := settled_script setting source memory
  rw [evaluate_apply]
  apply hsame
  intro inner hinner
  obtain ⟨hdepth, hlimit⟩ := hbelow inner hinner
  rw [deeperFor_apply hdepth hlimit]
  exact valueIn_apply setting inner.source inner.memory

/-! ## All scripts come to an end -/

theorem finishes_evaluate (setting : Setting) (start : Start) :
    Finishes setting start (evaluate setting start.source start.memory) := by
  obtain ⟨nested, hbelow, hsame⟩ := settled_script setting start.source start.memory
  apply Finishes.script nested fun inner => evaluate setting inner.source inner.memory
  case below => exact hbelow
  case finishes =>
    intro inner hinner
    obtain ⟨hdepth, hlimit⟩ := hbelow inner hinner
    exact finishes_evaluate setting inner
  case settled =>
    intro deeper hanswers
    rw [evaluate_eq_script]
    exact hsame deeper hanswers
termination_by setting.maxDepth - start.memory.depth

theorem Finishes.evaluate_eq {start : Start} {ending : Ending} (h : Finishes setting start ending) :
    evaluate setting start.source start.memory = ending := by
  induction h with
  | script nested inside below finishes settled ih =>
    rw [evaluate_eq_script]
    apply settled
    intro inner hinner
    rw [valueIn_apply, ih inner hinner]

/--
Whatever a source says, its evaluation finishes, and in one way only. The levels that it counts
never run out before the limit stops it.
-/
theorem finishes_iff_evaluate (setting : Setting) (start : Start) (ending : Ending) :
    Finishes setting start ending ↔ evaluate setting start.source start.memory = ending := by
  constructor
  · exact Finishes.evaluate_eq
  · rintro rfl
    exact finishes_evaluate setting start

end Calculator
