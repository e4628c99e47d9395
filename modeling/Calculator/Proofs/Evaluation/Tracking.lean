import Calculator.Decorator.Builtins
import Calculator.Function.Builtins
import Calculator.Proofs.Evaluation.Stepwise

/-!
# Two runs side by side

A script does the same whatever has been noted before, and comes back to the depth that it starts
from. A higher limit changes nothing unless the lower one stops the script.
-/

namespace Calculator

open Grammar Evaluation

/-- The memory as it is if other events came first. -/
def Memory.withPast (memory : Memory) (past : List Event) : Memory :=
  { memory with events := memory.events ++ past }

@[simp] theorem Memory.withPast_nil (memory : Memory) : memory.withPast [] = memory := by
  simp [Memory.withPast]

/-- A computation stops because it would go too deep. -/
def Overflows {α : Type} (result : Attempt α) : Prop :=
  ∃ site, result = .error (.error .tooDeep site)

theorem not_overflows {α : Type} {result : Attempt α} (h : result.toOption.isSome) :
    ¬ Overflows result := by
  rintro ⟨site, rfl⟩
  cases h

/--
The second computation does what the first one does, from the same memory with another past, and
both come back to their depth. Where overflows are excused, the first one may end with one.
-/
def Tracks {α : Type} (past : List Event) (excused : Prop) (depth : Nat)
    (first second : Evaluation α) : Prop :=
  ∀ memory, memory.depth = depth →
    (excused ∧ Overflows (first memory).1) ∨
      (second (memory.withPast past) = ((first memory).1, (first memory).2.withPast past) ∧
        (first memory).2.depth = depth)

namespace Tracks

variable {past : List Event} {excused : Prop} {depth : Nat} {α β : Type}

theorem of_eq {first second : Evaluation α}
    (h : ∀ memory, memory.depth = depth →
      second (memory.withPast past) = ((first memory).1, (first memory).2.withPast past) ∧
        (first memory).2.depth = depth) : Tracks past excused depth first second :=
  fun memory hdepth => .inr (h memory hdepth)

/-- Without excuses, both do the same. -/
theorem apply_eq {first second : Evaluation α} {memory : Memory}
    (h : Tracks past False memory.depth first second) :
    second (memory.withPast past) = ((first memory).1, (first memory).2.withPast past) ∧
      (first memory).2.depth = memory.depth := by
  rcases h memory rfl with ⟨hfalse, -⟩ | hsame
  · exact hfalse.elim
  · exact hsame

theorem attempt (attempt : Attempt α) :
    Tracks past excused depth (ofAttempt attempt) (ofAttempt attempt) := by
  apply of_eq
  intro memory hdepth
  cases attempt with
  | ok a => exact ⟨rfl, hdepth⟩
  | error failure => exact ⟨rfl, hdepth⟩

theorem bind {first second : Evaluation α} {f g : α → Evaluation β}
    (h : Tracks past excused depth first second)
    (hnext : ∀ a, Tracks past excused depth (f a) (g a)) :
    Tracks past excused depth (first >>= f) (second >>= g) := by
  intro memory hdepth
  rw [bind_apply, bind_apply]
  rcases hfirst : first memory with ⟨result, after⟩
  have hm := h memory hdepth
  rw [hfirst] at hm
  rcases hm with ⟨hexcused, site, hsite⟩ | ⟨hsecond, hback⟩
  · left
    simp only at hsite
    subst hsite
    exact ⟨hexcused, site, rfl⟩
  · rw [hsecond]
    cases result with
    | error failure => exact .inr ⟨rfl, hback⟩
    | ok a => exact hnext a after hback

theorem look {f g : Memory → Evaluation α}
    (h : ∀ memory, memory.depth = depth →
      Tracks past excused depth (f memory) (g (memory.withPast past))) :
    Tracks past excused depth (get >>= f) (get >>= g) :=
  fun memory hdepth => h memory hdepth memory hdepth

theorem map {first second : Evaluation α} (f : α → β)
    (h : Tracks past excused depth first second) :
    Tracks past excused depth (f <$> first) (f <$> second) := by
  simp only [← bind_pure_comp]
  exact h.bind fun a => .attempt (.ok (f a))

theorem note (event : Event) :
    Tracks past excused depth (Evaluation.note event) (Evaluation.note event) :=
  of_eq fun _ hdepth => ⟨rfl, hdepth⟩

theorem visit (visit : Visit α) :
    Tracks past excused depth (ofVisit visit) (ofVisit visit) := by
  apply of_eq
  intro memory hdepth
  rw [ofVisit_apply, ofVisit_apply]
  exact ⟨rfl, hdepth⟩

theorem oneDeeper {first second : Evaluation α}
    (h : Tracks past excused (depth + 1) first second) :
    Tracks past excused depth (Evaluation.oneDeeper first) (Evaluation.oneDeeper second) := by
  intro memory hdepth
  have hm := h memory.descend (by simp [Memory.descend, hdepth])
  rcases hm with hstop | ⟨hsecond, hback⟩
  · exact .inl hstop
  · right
    change second (memory.withPast past).descend = _ at hsecond
    simp only [Evaluation.oneDeeper, hsecond]
    refine ⟨rfl, ?_⟩
    change (first memory.descend).2.depth - 1 = depth
    omega

theorem apart {first second : Evaluation α} {prepare : Memory → Memory}
    (hpast : ∀ memory, prepare (memory.withPast past) = (prepare memory).withPast past)
    (hprepare : ∀ memory, (prepare memory).depth = memory.depth + 1)
    (h : Tracks past excused (depth + 1) first second) :
    Tracks past excused depth (Evaluation.apart prepare first)
      (Evaluation.apart prepare second) := by
  intro memory hdepth
  rcases h (prepare memory) (by rw [hprepare, hdepth]) with hstop | ⟨hsecond, -⟩
  · exact .inl hstop
  · right
    simp only [Evaluation.apart, hpast, hsecond]
    exact ⟨rfl, hdepth⟩

end Tracks

/-! ## Nested scripts -/

section

variable {past : List Event} {excused : Prop} {depth low high : Nat} {deeper deeper' : Deeper}

/-- What the limit lets go on, or refuses because it would go too deep. -/
theorem Tracks.limited {refuse refuse' next next' : Evaluation Value} (hle : low ≤ high)
    (hexcused : low < high → excused)
    (hrefuse : low = high → Tracks past excused depth refuse refuse')
    (hstops : ∀ memory, Overflows (refuse memory).1)
    (hnext : depth + 1 < low → Tracks past excused depth next next') :
    Tracks past excused depth (do if low ≤ (← get).depth + 1 then refuse else next)
      (do if high ≤ (← get).depth + 1 then refuse' else next') := by
  apply Tracks.look
  intro memory hdepth
  simp only [Memory.withPast, hdepth]
  by_cases hlow : low ≤ depth + 1
  · rw [if_pos hlow]
    rcases Nat.eq_or_lt_of_le hle with heq | hlt
    · rw [if_pos (heq ▸ hlow)]
      exact hrefuse heq
    · exact fun memory _ => .inl ⟨hexcused hlt, hstops memory⟩
  · rw [if_neg hlow, if_neg (by omega)]
    exact hnext (by omega)

theorem tracks_runNested (hle : low ≤ high) (hexcused : low < high → excused)
    (hdeeper : depth + 1 < low → ∀ source,
      Tracks past excused (depth + 1) (deeper source) (deeper' source))
    (setting : Setting) (site : Site) (source : String) :
    Tracks past excused depth (runNested (setting.withLimit low) deeper site source)
      (runNested (setting.withLimit high) deeper' site source) := by
  unfold runNested
  simp only [Setting.withLimit_maxDepth]
  apply Tracks.limited hle hexcused
  case hrefuse => exact fun _ => .attempt (.error (.located site .tooDeep))
  case hstops => exact fun memory => ⟨site, rfl⟩
  case hnext => exact fun hlow => .oneDeeper (hdeeper hlow source)

theorem tracks_callDefinition (hle : low ≤ high) (hexcused : low < high → excused)
    (hdeeper : depth + 1 < low → ∀ source,
      Tracks past excused (depth + 1) (deeper source) (deeper' source))
    (setting : Setting) (site : Site) (definition : Definition) (arguments : List Value) :
    Tracks past excused depth
      (callDefinition (setting.withLimit low) deeper site definition arguments)
      (callDefinition (setting.withLimit high) deeper' site definition arguments) := by
  unfold callDefinition
  simp only [Setting.withLimit_maxDepth]
  split
  · exact .attempt (.error (.located site _))
  apply Tracks.limited hle hexcused
  case hrefuse =>
    rintro rfl
    exact .bind (.note _) fun _ => .attempt (.error (.located site .tooDeep))
  case hstops => exact fun memory => ⟨site, rfl⟩
  case hnext =>
    exact fun hlow => .apart (fun memory => rfl) (fun memory => rfl) (hdeeper hlow definition.body)

/-- Steps in a row track themselves as soon as nested scripts do, one level deeper. -/
theorem Stepwise.tracks {setting : Setting} {may : Deed → Prop} {α : Type}
    {e : Nat → Deeper → Evaluation α} (h : Stepwise setting may e) (hle : low ≤ high)
    (hexcused : low < high → excused)
    (hdeeper : depth + 1 < low → ∀ source,
      Tracks past excused (depth + 1) (deeper source) (deeper' source)) :
    Tracks past excused depth (e low deeper) (e high deeper') := by
  induction h with
  | attempt attempt => exact .attempt attempt
  | bind _ _ ihfirst ihnext => exact .bind ihfirst fun a => ihnext a
  | look blind _ ih =>
    apply Tracks.look
    intro memory _
    rw [blind (memory.withPast past) memory rfl rfl]
    exact ih memory
  | draw => exact .of_eq fun memory hdepth => ⟨rfl, hdepth⟩
  | note event => exact .note event
  | put name value _ => exact .of_eq fun memory hdepth => ⟨rfl, hdepth⟩
  | define definition _ => exact .of_eq fun memory hdepth => ⟨rfl, hdepth⟩
  | visit visit _ => exact .visit visit
  | nested _ _ _ site source => exact tracks_runNested hle hexcused hdeeper setting site source
  | call site definition arguments =>
    exact tracks_callDefinition hle hexcused hdeeper setting site definition arguments

theorem tracks_script (hle : low ≤ high) (hexcused : low < high → excused) (setting : Setting)
    (hdeeper : depth + 1 < low → ∀ source,
      Tracks past excused (depth + 1) (deeper source) (deeper' source)) (source : String) :
    Tracks past excused depth (script (setting.withLimit low) deeper source)
      (script (setting.withLimit high) deeper' source) :=
  (Stepwise.anyScript setting source).tracks hle hexcused hdeeper

/-- The number of levels does not matter as long as there are enough of them for the limit. -/
theorem tracks_deeperIn (hle : low ≤ high) (hexcused : low < high → excused) (setting : Setting)
    {room room' : Nat} (hroom : low - 1 - depth ≤ room) (hroom' : high - 1 - depth ≤ room')
    (source : String) :
    Tracks past excused depth
      (script (setting.withLimit low) (deeperIn (setting.withLimit low) room) source)
      (script (setting.withLimit high) (deeperIn (setting.withLimit high) room') source) := by
  induction room generalizing depth room' source with
  | zero =>
    apply tracks_script hle hexcused setting
    intro hlow
    omega
  | succ room ih =>
    apply tracks_script hle hexcused setting
    intro hlow inner
    cases room' with
    | zero => omega
    | succ room' => exact .map _ (ih (by omega) (by omega) inner)

theorem tracks_evaluate (hle : low ≤ high) (hexcused : low < high → excused) (setting : Setting)
    (source : String) :
    Tracks past excused depth (evaluate (setting.withLimit low) source)
      (evaluate (setting.withLimit high) source) := by
  apply Tracks.look
  intro memory hdepth
  exact tracks_deeperIn hle hexcused setting (by simp [roomBelow, hdepth])
    (by simp [roomBelow, Memory.withPast, hdepth]) source

/-- Events that have been noted before change nothing. -/
theorem tracks_evaluate_self (setting : Setting) (source : String) :
    Tracks past False depth (evaluate setting source) (evaluate setting source) :=
  tracks_evaluate (Nat.le_refl setting.maxDepth) (by omega) setting source

/-- A script comes back to its depth, also when it fails. -/
theorem evaluate_depth (setting : Setting) (source : String) (memory : Memory) :
    (evaluate setting source memory).2.depth = memory.depth := by
  have h : Tracks [] False memory.depth (evaluate setting source) (evaluate setting source) :=
    tracks_evaluate_self setting source
  exact h.apply_eq.2

/-- A higher limit changes nothing for a script that the lower one does not stop. -/
theorem evaluate_of_higher_limit (setting : Setting) (source : String) (memory : Memory)
    (hle : low ≤ high)
    (hstop : ¬ Overflows (evaluate (setting.withLimit low) source memory).1) :
    evaluate (setting.withLimit high) source memory =
      evaluate (setting.withLimit low) source memory := by
  have h : Tracks [] True memory.depth (evaluate (setting.withLimit low) source)
      (evaluate (setting.withLimit high) source) :=
    tracks_evaluate hle (fun _ => trivial) setting source
  rcases h memory rfl with ⟨-, hoverflow⟩ | ⟨hsame, -⟩
  · exact absurd hoverflow hstop
  · rw [Memory.withPast_nil, Memory.withPast_nil] at hsame
    exact hsame

theorem evaluate_of_higher_limit_call :
    let setting : Setting := ⟨2, .builtin, .builtin, none, .still⟩
    ¬ Overflows (evaluate (setting.withLimit 2) "f(x) = x\nf(1)" .empty).1 ∧
      evaluate (setting.withLimit 3) "f(x) = x\nf(1)" .empty =
        evaluate (setting.withLimit 2) "f(x) = x\nf(1)" .empty := by
  intro setting
  have hstop : ¬ Overflows (evaluate (setting.withLimit 2) "f(x) = x\nf(1)" .empty).1 :=
    not_overflows (by decide +kernel)
  exact ⟨hstop, evaluate_of_higher_limit setting _ _ (by decide) hstop⟩

end

end Calculator
