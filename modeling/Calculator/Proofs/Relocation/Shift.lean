import Calculator.Proofs.Relocation.Evaluation

/-!
# Lines further on in a source

Behind other lines, all places are further on by the same number of characters.
-/

namespace Calculator

open Grammar

variable {offset : Nat}

/-- The same failure further on in a source. A fault is nowhere in it. -/
def Failure.shift (offset : Nat) : Failure → Failure
  | .error cause site => .error cause (site.map (Site.shift offset))
  | .fault why => .fault why

/-- The same failure, with its place or where it has been before. -/
def Failure.Moved (offset : Nat) (first second : Failure) : Prop :=
  second = first ∨ second = first.shift offset

/-- The same result, or the same failure with its place or where it has been before. -/
inductive Attempt.Moved {α : Type} (offset : Nat) : Attempt α → Attempt α → Prop
  | ok (a : α) : Moved offset (.ok a) (.ok a)
  | error {first second : Failure} (h : first.Moved offset second) :
      Moved offset (.error first) (.error second)

/-- The same call further on in a source. -/
def Call.shift (offset : Nat) (call : Call) : Call := { call with site := call.site.shift offset }

/-- The function uses its place only to say where a failure is. -/
def Behaviour.Placeless : Behaviour → Prop
  | compute f => ∀ offset call, Attempt.Moved offset (f call) (f (call.shift offset))
  | consult f => ∀ world offset call,
      Attempt.Moved offset (f world call) (f world (call.shift offset))
  | draw f => ∀ drawn offset call, Attempt.Moved offset (f drawn call) (f drawn (call.shift offset))
  | help | run | runFile => True

/-- The decorator uses its place only to say where a failure is. -/
def Decorator.Placeless (decorator : Decorator) : Prop :=
  ∀ offset site value, Attempt.Moved offset (decorator.render site value)
    (decorator.render (site.shift offset) value)

/-- No function and no decorator of the tables comes to something else further on in a source. -/
structure Setting.Placeless (setting : Setting) : Prop where
  functions : ∀ function ∈ setting.functions.functions, function.behaviour.Placeless
  decorators : ∀ decorator ∈ setting.decorators.decorators, decorator.Placeless

/-- From every memory the same memory, and the same result up to the place of a failure. -/
def Evaluation.Moved {α : Type} (offset : Nat) (first second : Evaluation α) : Prop :=
  ∀ memory, (second memory).2 = (first memory).2 ∧
    Attempt.Moved offset (first memory).1 (second memory).1

/-! ## A shift is a move -/

theorem Failure.shift_eq_relocate (failure : Failure) :
    failure.shift offset = failure.relocate (Site.shift offset) := by
  cases failure <;> rfl

theorem Attempt.moved_iff {α : Type} {first second : Attempt α} :
    Attempt.Moved offset first second ↔ Attempt.Carried (Site.shift offset) first second := by
  constructor
  · rintro (a | h)
    · exact .ok a
    · rw [Failure.Moved, Failure.shift_eq_relocate] at h
      exact .error h
  · rintro (a | h)
    · exact .ok a
    · rw [Failure.Carried, ← Failure.shift_eq_relocate] at h
      exact .error h

theorem Behaviour.placeless_iff {behaviour : Behaviour} :
    behaviour.Placeless ↔ ∀ offset, behaviour.Carries (Site.shift offset) := by
  cases behaviour with
  | compute f => simp only [Placeless, Carries, Attempt.moved_iff]; rfl
  | consult f =>
    simp only [Placeless, Carries, Attempt.moved_iff]
    exact forall_comm
  | draw f =>
    simp only [Placeless, Carries, Attempt.moved_iff]
    exact forall_comm
  | help | run | runFile => simp [Placeless, Carries]

theorem Setting.placeless_iff {setting : Setting} :
    setting.Placeless ↔ ∀ offset, setting.Carries (Site.shift offset) := by
  constructor
  · intro h offset
    refine ⟨fun function hmem => Behaviour.placeless_iff.mp (h.functions function hmem) offset,
      fun decorator hmem site value => ?_⟩
    exact Attempt.moved_iff.mp (h.decorators decorator hmem offset site value)
  · intro h
    refine ⟨fun function hmem => Behaviour.placeless_iff.mpr fun offset =>
      (h offset).functions function hmem, fun decorator hmem offset site value => ?_⟩
    exact Attempt.moved_iff.mpr ((h offset).decorators decorator hmem site value)

/-- The tables that are always there hold nothing that looks at its place. -/
theorem Setting.placeless_builtin (maxDepth : Nat) (host : Option Host) (world : World) :
    Setting.Placeless ⟨maxDepth, .builtin, .builtin, host, world⟩ :=
  placeless_iff.mpr fun _ => carries_builtin maxDepth host world

theorem Evaluation.keeps_shift (site : Site) : Keeps (Site.shift offset) site := rfl

/-- Lines do the same further on in a source, up to the places of failures. -/
theorem Evaluation.Moved.lines {setting : Setting} {deeper : Deeper} (h : setting.Placeless)
    (trees : List Tree) : Moved offset (Evaluation.lines setting deeper trees)
      (Evaluation.lines setting deeper (Tree.shiftAll offset trees)) := by
  have hlines : Carried (Site.shift offset) (Evaluation.lines setting deeper trees)
      (Evaluation.lines setting deeper (Tree.relocateAll (Site.shift offset) trees)) :=
    .lines (Setting.placeless_iff.mp h offset) fun tree _ =>
      .of_forall Evaluation.keeps_shift tree
  rw [Tree.shiftAll_eq_relocateAll]
  exact fun memory => ⟨(hlines memory).1, Attempt.moved_iff.mpr (hlines memory).2⟩

end Calculator
