import Calculator.Decorator.Builtins
import Calculator.Function.Builtins
import Calculator.Proofs.Evaluation.Stepwise

/-!
# What a script leaves alone

A script that runs no text and no file changes only what it names itself. What the functions that
it calls do to their variables stays with them.
-/

namespace Calculator

open Grammar Evaluation

/-- What no deed goes to is as it was before, as far as those deeds go that may be done. -/
structure Keeps (may : Deed → Prop) (before after : Memory) : Prop where
  bindings : ∀ name, ¬ may (.assigns name) →
    after.bindings.get? name = before.bindings.get? name
  definitions : ∀ name, ¬ may (.defines name) →
    after.definitions.lookup name = before.definitions.lookup name

namespace Keeps

variable {may : Deed → Prop}

theorem refl (memory : Memory) : Keeps may memory memory := ⟨fun _ _ => rfl, fun _ _ => rfl⟩

theorem of_eq {before after : Memory} (hbindings : after.bindings = before.bindings)
    (hdefinitions : after.definitions = before.definitions) : Keeps may before after := by
  constructor
  · intro name _
    rw [hbindings]
  · intro name _
    rw [hdefinitions]

theorem trans {before between after : Memory} (h : Keeps may before between)
    (h' : Keeps may between after) : Keeps may before after := by
  constructor
  · intro name hname
    rw [h'.bindings name hname, h.bindings name hname]
  · intro name hname
    rw [h'.definitions name hname, h.definitions name hname]

theorem put {name : String} (allowed : may (.assigns name)) (memory : Memory) (value : Value) :
    Keeps may memory { memory with bindings := memory.bindings.put name value } := by
  constructor
  · intro other hother
    apply Named.lookup_put_of_ne
    rintro rfl
    exact hother allowed
  · intro _ _
    rfl

theorem define {definition : Definition} (allowed : may (.defines definition.name))
    (memory : Memory) :
    Keeps may memory { memory with definitions := memory.definitions.put definition } := by
  constructor
  · intro _ _
    rfl
  · intro other hother
    apply Named.lookup_put_of_ne
    rintro rfl
    exact hother allowed

theorem bind {α β : Type} {first : Evaluation α} {f : α → Evaluation β} {memory : Memory}
    (h : Keeps may memory (first memory).2)
    (hnext : ∀ a between, Keeps may between (f a between).2) :
    Keeps may memory ((first >>= f) memory).2 := by
  rw [bind_apply]
  rcases hfirst : first memory with ⟨failure | a, between⟩ <;> rw [hfirst] at h
  · exact h
  · exact h.trans (hnext a between)

end Keeps

/-- A called function works on variables of its own. -/
theorem keeps_callDefinition (may : Deed → Prop) (setting : Setting) (deeper : Deeper)
    (site : Site) (definition : Definition) (arguments : List Value) (memory : Memory) :
    Keeps may memory (callDefinition setting deeper site definition arguments memory).2 := by
  rw [callDefinition_apply]
  split
  · exact .refl memory
  · split
    · exact .of_eq rfl rfl
    · exact .of_eq rfl rfl

/-- The names that may be called stand for no function that runs scripts on the same variables. -/
def Unnested (setting : Setting) (may : Deed → Prop) : Prop :=
  ∀ name function, may (.calls name) → setting.functions.find? name = some function →
    ¬ function.behaviour.runsScripts

theorem Stepwise.keeps {setting : Setting} {may : Deed → Prop} {α : Type}
    {e : Nat → Deeper → Evaluation α} (h : Stepwise setting may e) (hhost : setting.host = none)
    (hunnested : Unnested setting may) (limit : Nat) (deeper : Deeper) (memory : Memory) :
    Keeps may memory (e limit deeper memory).2 := by
  induction h generalizing memory with
  | attempt attempt => cases attempt <;> exact .refl memory
  | bind _ _ ihfirst ihnext => exact .bind (ihfirst memory) ihnext
  | look _ _ ih => exact ih memory memory
  | draw => exact .of_eq rfl rfl
  | note event => exact .of_eq rfl rfl
  | put name value allowed => exact .put allowed memory value
  | define definition allowed => exact .define allowed memory
  | visit _ hosted => simp [hhost] at hosted
  | nested allowed found runs => exact absurd runs (hunnested _ _ allowed found)
  | call site definition arguments =>
    exact keeps_callDefinition may _ deeper site definition arguments memory

/-- Of the functions that are always there, only two run scripts. -/
theorem FunctionTable.builtin_runsScripts :
    ∀ function ∈ FunctionTable.builtin.functions, function.behaviour.runsScripts →
      function.name = "run" ∨ function.name = "call" := by
  decide

theorem unnested_builtin {setting : Setting} (hfunctions : setting.functions = .builtin)
    {may : Deed → Prop} (hrun : ¬ may (.calls "run")) (hcall : ¬ may (.calls "call")) :
    Unnested setting may := by
  intro name function allowed found runs
  rw [hfunctions, FunctionTable.find?] at found
  have hname : function.name = name := by simpa using List.find?_some found
  have hbuiltin := FunctionTable.builtin_runsScripts function (List.mem_of_find?_eq_some found)
  rcases hbuiltin runs with h | h
  · rw [← hname, h] at allowed
    exact hrun allowed
  · rw [← hname, h] at allowed
    exact hcall allowed

/--
With the functions that are always there, a source that neither calls `run` nor `call` outside of
function bodies changes only the variables that it assigns there, and only the functions that it
defines there.
-/
theorem evaluate_keeps (setting : Setting) (hfunctions : setting.functions = .builtin)
    (hhost : setting.host = none) {source : String} {tree : Tree} (hparse : parse source = .ok tree)
    (hrun : .calls "run" ∉ tree.deeds) (hcall : .calls "call" ∉ tree.deeds) (memory : Memory) :
    let after := (evaluate setting source memory).2
    (∀ name, .assigns name ∉ tree.deeds →
      after.bindings.get? name = memory.bindings.get? name) ∧
    (∀ name, .defines name ∉ tree.deeds →
      after.definitions.lookup name = memory.definitions.lookup name) := by
  have hsteps : Stepwise setting (· ∈ tree.deeds) fun limit deeper =>
      script (setting.withLimit limit) deeper source := by
    apply Stepwise.script
    intro tree' hparse' deed hdeed
    rw [hparse] at hparse'
    cases hparse'
    exact hdeed
  have hkeeps := hsteps.keeps hhost (unnested_builtin hfunctions hrun hcall) setting.maxDepth
    (deeperFor setting memory.depth) memory
  rw [Setting.withLimit_self, ← evaluate_apply] at hkeeps
  exact ⟨hkeeps.bindings, hkeeps.definitions⟩

/-- The body of a function runs a text that assigns a variable of the caller. -/
theorem evaluate_keeps_body :
    let setting : Setting := ⟨50, .builtin, .builtin, none, .still⟩
    let memory : Memory := { Memory.empty with bindings := [("y", .int 1)] }
    let source := "f(x) = run('y = x')\nf(2)"
    ∃ tree, parse source = .ok tree ∧ .calls "run" ∉ tree.deeds ∧ .calls "call" ∉ tree.deeds ∧
      .assigns "y" ∉ tree.deeds ∧
      (evaluate setting source memory).2.bindings.get? "y" = memory.bindings.get? "y" := by
  intro setting memory source
  have hdeeds : (Tree.deeds <$> parse source).toOption =
      some [.defines "f", .calls "f"] := by decide +kernel
  rcases hparse : parse source with _ | tree <;> rw [hparse] at hdeeds
  · cases hdeeds
  · have htree : tree.deeds = [.defines "f", .calls "f"] := Option.some.inj hdeeds
    have hrun : .calls "run" ∉ tree.deeds := by rw [htree]; decide
    have hcall : .calls "call" ∉ tree.deeds := by rw [htree]; decide
    have hy : .assigns "y" ∉ tree.deeds := by rw [htree]; decide
    have hkeeps := evaluate_keeps setting rfl rfl hparse hrun hcall memory
    exact ⟨tree, rfl, hrun, hcall, hy, hkeeps.1 "y" hy⟩

end Calculator
