import Calculator.Evaluation.Script
import Calculator.Proofs.Demand.Combination
import Calculator.Proofs.Demand.Function

/-!
# Functions that refuse

Two computations are compared. The second one may refuse where the first one goes on. As long as it
does not, both are the same, and all that they leave behind is as demanded.
-/

namespace Calculator

open Grammar Evaluation

variable {demand : Demand} {refusal : Option Failure}

/-! ## Computations -/

abbrev Bindings.Meet (demand : Demand) (bindings : Bindings) : Prop :=
  ∀ binding ∈ bindings, binding.2.meets demand

/-- All variables are as demanded. -/
def Memory.Meets (demand : Demand) (memory : Memory) : Prop := memory.bindings.Meet demand

/-- The second attempt is refused, or both are the same. -/
def Attempt.Follows {α : Type} (refusal : Option Failure) (post : α → Prop)
    (first second : Attempt α) : Prop :=
  (∃ failure ∈ refusal, second = .error failure) ∨ (second = first ∧ first.Yields post)

/--
From a memory as demanded, the second computation is refused, or both are the same and leave such a
memory behind.
-/
def Obeys {α : Type} (demand : Demand) (refusal : Option Failure) (post : α → Prop)
    (first second : Evaluation α) : Prop :=
  ∀ memory, memory.Meets demand →
    (∃ failure ∈ refusal, (second memory).1 = .error failure) ∨
      (second memory = first memory ∧ (first memory).2.Meets demand ∧
        Attempt.Yields (first memory).1 post)

namespace Obeys

variable {α β : Type} {post : α → Prop} {next : β → Prop}

theorem follow {first second : Attempt α} (h : Attempt.Follows refusal post first second) :
    Obeys demand refusal post (ofAttempt first) (ofAttempt second) := by
  intro memory hmemory
  rcases h with ⟨failure, hfailure, rfl⟩ | ⟨rfl, hpost⟩
  · exact .inl ⟨failure, hfailure, rfl⟩
  · right
    cases second with
    | ok a => exact ⟨rfl, hmemory, hpost⟩
    | error failure => exact ⟨rfl, hmemory, hpost⟩

theorem attempt {attempt : Attempt α} (h : attempt.Yields post) :
    Obeys demand refusal post (ofAttempt attempt) (ofAttempt attempt) :=
  follow (.inr ⟨rfl, h⟩)

theorem pure {a : α} (h : post a) :
    Obeys demand refusal post (Pure.pure a : Evaluation α) (Pure.pure a) :=
  show Obeys demand refusal post (ofAttempt (.ok a)) (ofAttempt (.ok a)) from attempt (.ok h)

theorem fail (site : Site) (cause : Cause) :
    Obeys demand refusal post (Evaluation.fail site cause : Evaluation α)
      (Evaluation.fail site cause) :=
  fun _ hmemory => .inr ⟨rfl, hmemory, .error⟩

theorem bind {first second : Evaluation α} {f g : α → Evaluation β}
    (h : Obeys demand refusal post first second)
    (hnext : ∀ a, post a → Obeys demand refusal next (f a) (g a)) :
    Obeys demand refusal next (first >>= f) (second >>= g) := by
  intro memory hmemory
  rw [bind_apply, bind_apply]
  rcases h memory hmemory with ⟨failure, hfailure, hsecond⟩ | ⟨hsecond, hafter, hpost⟩
  · left
    rcases hrun : second memory with ⟨result, after⟩
    rw [hrun] at hsecond
    cases hsecond
    exact ⟨failure, hfailure, rfl⟩
  · rw [hsecond]
    rcases hrun : first memory with ⟨result, after⟩
    rw [hrun] at hafter hpost
    cases result with
    | error failure => exact .inr ⟨rfl, hafter, .error⟩
    | ok a => exact hnext a (hpost a rfl) after hafter

theorem map {first second : Evaluation α} {f : α → β} (h : Obeys demand refusal post first second)
    (hf : ∀ a, post a → next (f a)) : Obeys demand refusal next (f <$> first) (f <$> second) := by
  simp only [← bind_pure_comp]
  exact h.bind fun a ha => .pure (hf a ha)

theorem mono {first second : Evaluation α} {weaker : α → Prop}
    (h : Obeys demand refusal post first second) (himp : ∀ a, post a → weaker a) :
    Obeys demand refusal weaker first second := fun memory hmemory =>
  (h memory hmemory).imp_right fun ⟨hsame, hafter, hpost⟩ => ⟨hsame, hafter, hpost.mono himp⟩

theorem look {f g : Memory → Evaluation α}
    (h : ∀ memory, memory.Meets demand → Obeys demand refusal post (f memory) (g memory)) :
    Obeys demand refusal post (get >>= f) (get >>= g) :=
  fun memory hmemory => h memory hmemory memory hmemory

theorem ite {c : Prop} [Decidable c] {yes no yes' no' : Evaluation α}
    (hyes : Obeys demand refusal post yes yes') (hno : Obeys demand refusal post no no') :
    Obeys demand refusal post (if c then yes else no) (if c then yes' else no') := by
  split
  · exact hyes
  · exact hno

theorem modify {change : Memory → Memory}
    (h : ∀ memory, memory.Meets demand → (change memory).Meets demand) :
    Obeys demand refusal (fun _ => True) (modify change : Evaluation Unit) (modify change) :=
  fun memory hmemory => .inr ⟨rfl, h memory hmemory, fun _ _ => trivial⟩

theorem note (event : Event) :
    Obeys demand refusal (fun _ => True) (Evaluation.note event) (Evaluation.note event) :=
  modify fun _ hmemory => hmemory

theorem draw : Obeys demand refusal (fun _ => True) Evaluation.draw Evaluation.draw :=
  fun _ hmemory => .inr ⟨rfl, hmemory, fun _ _ => trivial⟩

theorem visit {visit : Visit α} (h : ∀ bindings, Bindings.Meet demand bindings →
      Bindings.Meet demand (visit bindings).2 ∧ Attempt.Yields (visit bindings).1 post) :
    Obeys demand refusal post (ofVisit visit) (ofVisit visit) := by
  intro memory hmemory
  rw [ofVisit_apply]
  exact .inr ⟨rfl, h memory.bindings hmemory⟩

theorem oneDeeper {first second : Evaluation α} (h : Obeys demand refusal post first second) :
    Obeys demand refusal post (Evaluation.oneDeeper first) (Evaluation.oneDeeper second) := by
  intro memory hmemory
  rcases h memory.descend hmemory with hrefused | ⟨hsecond, hafter, hpost⟩
  · exact .inl hrefused
  · right
    simp only [Evaluation.oneDeeper, hsecond]
    exact ⟨trivial, hafter, hpost⟩

theorem apart {first second : Evaluation α} {prepare : Memory → Memory}
    (hprepare : ∀ memory, memory.Meets demand → (prepare memory).Meets demand)
    (h : Obeys demand refusal post first second) :
    Obeys demand refusal post (Evaluation.apart prepare first)
      (Evaluation.apart prepare second) := by
  intro memory hmemory
  rcases h (prepare memory) (hprepare memory hmemory) with hrefused | ⟨hsecond, -, hpost⟩
  · exact .inl hrefused
  · right
    simp only [Evaluation.apart, hsecond]
    exact ⟨trivial, hmemory, hpost⟩

end Obeys

/-! ## Functions and their guards -/

/-- For calls as demanded, the second function refuses, or both answer alike. -/
def FollowsCalls (demand : Demand) (refusal : Option Failure) (f g : Call → Attempt Value) : Prop :=
  ∀ call, call.Meets demand → Attempt.Follows refusal (·.meets demand) (f call) (g call)

theorem KeepsCalls.follows {f : Call → Attempt Value} (h : KeepsCalls demand f) :
    FollowsCalls demand refusal f f := fun call hcall => .inr ⟨rfl, h call hcall⟩

/-- Functions of one kind, the second of which may refuse calls. -/
inductive Behaviour.Follows (demand : Demand) (refusal : Option Failure) :
    Behaviour → Behaviour → Prop
  | compute {f g : Call → Attempt Value} (h : FollowsCalls demand refusal f g) :
      Follows demand refusal (.compute f) (.compute g)
  | consult {f g : World → Call → Attempt Value}
      (h : ∀ world, FollowsCalls demand refusal (f world) (g world)) :
      Follows demand refusal (.consult f) (.consult g)
  | draw {f g : Nat → Call → Attempt Value}
      (h : ∀ drawn, FollowsCalls demand refusal (f drawn) (g drawn)) :
      Follows demand refusal (.draw f) (.draw g)
  | help : Follows demand refusal .help .help
  | run : Follows demand refusal .run .run
  | runFile : Follows demand refusal .runFile .runFile

theorem Behaviour.Keeps.follows {behaviour : Behaviour} (h : behaviour.Keeps demand) :
    behaviour.Follows demand refusal behaviour := by
  cases behaviour with
  | compute f => exact .compute (KeepsCalls.follows h)
  | consult f => exact .consult fun world => KeepsCalls.follows (h world)
  | draw f => exact .draw fun drawn => KeepsCalls.follows (h drawn)
  | help => exact .help
  | run => exact .run
  | runFile => exact .runFile

/-- The function with another behaviour. -/
def Function.behavingAs (behaviour : Function → Behaviour) (function : Function) : Function :=
  { function with behaviour := behaviour function }

/-- The setting in which every function behaves in another way. -/
def Setting.behavingAs (setting : Setting) (behaviour : Function → Behaviour) : Setting :=
  { setting with functions := ⟨setting.functions.functions.map (·.behavingAs behaviour)⟩ }

/-- Leaves variables and gives answers as demanded, whatever such values it is called with. -/
structure Host.Keeps (demand : Demand) (host : Host) : Prop where
  functions : ∀ name function, host.function? name = some function →
    ∀ arguments bindings, AllMeet demand arguments → Bindings.Meet demand bindings →
      Bindings.Meet demand (function arguments bindings).bindings ∧
        ∀ plain, (function arguments bindings).finish = .returned plain →
          ∀ value ∈ plain.toValue?, value.meets demand
  decorators : ∀ name decorator, host.decorator? name = some decorator →
    ∀ value bindings, value.meets demand → Bindings.Meet demand bindings →
      Bindings.Meet demand (decorator value bindings).bindings

/-- What a demand needs of a setting and of the behaviours that take the place of those in it. -/
structure Guards (demand : Demand) (refusal : Option Failure) (setting : Setting)
    (behaviour : Function → Behaviour) : Prop where
  functions : ∀ function ∈ setting.functions.functions,
    function.behaviour.Follows demand refusal (behaviour function)
  host : ∀ host ∈ setting.host, host.Keeps demand
  /-- Names that stand for nothing come to help and to no other function. -/
  help : demand = .resolved → setting.host = none ∧
    ∃ function, setting.functions.find? "help" = some function ∧ function.behaviour = .help

namespace Setting

variable (setting : Setting) (behaviour : Function → Behaviour)

@[simp] theorem behavingAs_host : (setting.behavingAs behaviour).host = setting.host := rfl

@[simp] theorem behavingAs_decorators :
    (setting.behavingAs behaviour).decorators = setting.decorators := rfl

@[simp] theorem behavingAs_maxDepth :
    (setting.behavingAs behaviour).maxDepth = setting.maxDepth := rfl

theorem find?_behavingAs (name : String) :
    (setting.behavingAs behaviour).functions.find? name =
      (setting.functions.find? name).map (·.behavingAs behaviour) :=
  List.find?_map

end Setting

/-- Help tells about signatures and descriptions alone. -/
theorem Help.text_behavingAs (setting : Setting) (behaviour : Function → Behaviour)
    (memory : Memory) : text (setting.behavingAs behaviour) memory = text setting memory := by
  have hsorted : (setting.behavingAs behaviour).functions.sorted =
      setting.functions.sorted.map (·.behavingAs behaviour) := by
    refine (List.map_mergeSort ?_).symm
    intro f _ g _
    rfl
  have hblocks : functionBlocks (setting.behavingAs behaviour).functions =
      functionBlocks setting.functions := by
    simp only [functionBlocks, FunctionTable.categories, FunctionTable.inCategory, hsorted,
      List.filter_map, List.map_map]
    simp only [Setting.behavingAs, List.map_map]
    rfl
  unfold text
  rw [hblocks]
  rfl

theorem Help.describe_behavingAs (setting : Setting) (behaviour : Function → Behaviour)
    (memory : Memory) (name : String) :
    describe (setting.behavingAs behaviour) memory name = describe setting memory name := by
  have hfunction : describeFunction (setting.behavingAs behaviour) memory name =
      describeFunction setting memory name := by
    simp only [describeFunction, Setting.find?_behavingAs, Option.map_map]
    rfl
  unfold describe
  rw [hfunction]
  rfl

end Calculator
