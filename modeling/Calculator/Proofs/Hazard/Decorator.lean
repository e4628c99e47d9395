import Calculator.Decorator.Builtins
import Calculator.Proofs.Hazard.Arithmetic

/-!
# How decorators fail

A decorator that takes arrays apart fails as it does on the items. Those that are always there fail
on values that they cannot write, and in no other way.
-/

namespace Calculator

variable {α β γ : Type} {kind : Failure → Prop} {hazard : Hazard} {decorator : Decorator}
  {site : Site}

/-! ## Failures of one kind -/

namespace Attempt

/-- Comes to something, or fails in a way of this kind. -/
def FailsAs (kind : Failure → Prop) (attempt : Attempt α) : Prop :=
  ∀ failure, attempt = .error failure → kind failure

namespace FailsAs

theorem ok (a : α) : FailsAs kind (.ok a) := fun _ h => nomatch h

theorem error {failure : Failure} (h : kind failure) : FailsAs kind (.error failure : Attempt α) :=
  fun _ heq => Except.error.inj heq ▸ h

theorem bind {attempt : Attempt α} {f : α → Attempt β} (h : attempt.FailsAs kind)
    (hnext : ∀ a, (f a).FailsAs kind) : (attempt >>= f).FailsAs kind := by
  cases attempt with
  | ok a => exact hnext a
  | error failure => exact error (h failure rfl)

/-- A value made of what one attempt comes to. -/
theorem lift {attempt : Attempt α} {f : α → β} (h : attempt.FailsAs kind) :
    FailsAs kind (do return f (← attempt)) :=
  h.bind fun _ => ok _

/-- A value made of what two attempts come to. -/
theorem lift₂ {first : Attempt α} {second : Attempt β} {f : α → β → γ}
    (hfirst : first.FailsAs kind) (hsecond : second.FailsAs kind) :
    FailsAs kind (do return f (← first) (← second)) :=
  hfirst.bind fun _ => lift hsecond

theorem mono {other : Failure → Prop} {attempt : Attempt α} (h : attempt.FailsAs kind)
    (himp : ∀ failure, kind failure → other failure) : attempt.FailsAs other :=
  fun failure heq => himp failure (h failure heq)

end FailsAs

theorem safe_of_failsAs {attempt : Attempt α} (h : attempt.FailsAs kind)
    (hkind : ∀ failure, kind failure → ¬hazard.Holds failure) : attempt.Safe hazard := by
  cases attempt with
  | ok a => exact .ok trivial
  | error failure => exact .failed (hkind failure (h failure rfl))

theorem Avoids.failsAs {post : α → Prop} {attempt : Attempt α} (h : attempt.Avoids hazard post) :
    attempt.FailsAs (¬hazard.Holds ·) := by
  cases h with
  | ok h => exact .ok _
  | failed h => exact .error h

end Attempt

/-! ## Decorators that take values apart -/

namespace Decorator

/-- Whatever it is to write, it fails in ways of this kind only. -/
def FailsAs (kind : Failure → Prop) (decorator : Decorator) : Prop :=
  ∀ site value, (decorator.render site value).FailsAs kind

/-- It says that values of another type are none for the decorator. -/
def Rejects (kind : Failure → Prop) (decorator : Decorator) : Prop :=
  ∀ site, kind (.located site (.valueType decorator.expected))

mutual

theorem renderPlural_failsAs (h : decorator.FailsAs kind) (htype : decorator.Rejects kind) :
    (value : Value) → (decorator.renderPlural site value).FailsAs kind
  | .array items => by
    rw [renderPlural]
    split
    · exact h site _
    · exact .lift (renderItems_failsAs h htype items)
  | .object entries => by
    rw [renderPlural]
    split
    · exact h site _
    · exact .lift (renderEntries_failsAs h htype entries)
  | .none | .bool _ | .int _ | .float _ | .string _ | .name _ => by
    rw [renderPlural] <;> try simp
    split
    · exact h site _
    · exact .error (htype site)

theorem renderItems_failsAs (h : decorator.FailsAs kind) (htype : decorator.Rejects kind) :
    (items : List Value) → (decorator.renderItems site items).FailsAs kind
  | [] => .ok _
  | item :: items =>
    .lift₂ (renderPlural_failsAs h htype item) (renderItems_failsAs h htype items)

theorem renderEntries_failsAs (h : decorator.FailsAs kind) (htype : decorator.Rejects kind) :
    (entries : Entries) → (decorator.renderEntries site entries).FailsAs kind
  | [] => .ok _
  | (_, value) :: entries =>
    .lift₂ (renderPlural_failsAs h htype value) (renderEntries_failsAs h htype entries)

end

theorem call_failsAs (h : decorator.FailsAs kind) (htype : decorator.Rejects kind) (site : Site)
    (value : Value) : (decorator.call site value).FailsAs kind := by
  unfold Decorator.call
  split
  · exact renderPlural_failsAs h htype value
  · split
    · exact h site value
    · exact .error (htype site)

end Decorator

/-- The decorator never fails in a hazardous way, whatever it is to write. -/
def Decorator.Safe (hazard : Hazard) (decorator : Decorator) : Prop :=
  ∀ site value, (decorator.render site value).Safe hazard

theorem Decorator.call_safe (h : decorator.Safe hazard) (site : Site) (value : Value) :
    (decorator.call site value).Safe hazard := by
  have hfails : decorator.FailsAs (¬hazard.Holds ·) := fun site value => (h site value).failsAs
  have hrejects : decorator.Rejects (¬hazard.Holds ·) :=
    fun site hholds => Bool.false_ne_true (hazard.special _ hholds)
  exact Attempt.safe_of_failsAs (call_failsAs hfails hrejects site value) fun _ => id

theorem DecoratorTable.call_safe {table : DecoratorTable}
    (h : ∀ decorator ∈ table.decorators, decorator.Safe hazard) (site : Site) (name : String)
    (value : Value) : (table.call site name value).Safe hazard := by
  unfold DecoratorTable.call
  cases hfound : table.find? name with
  | none => exact .fail rfl
  | some decorator =>
    obtain ⟨place, -, hplace⟩ := Option.bind_eq_some_iff.mp hfound
    exact Decorator.call_safe (h decorator (List.mem_of_getElem? hplace)) site value

/-! ## Those that are always there -/

/-- The value is of a kind or size that cannot be written. -/
def Failure.isUnwritable : Failure → Bool
  | .error (.valueType _) _ | .error (.range _) _ | .error .overflow _ | .fault _ => true
  | .error _ _ => false

theorem Failure.isSpecial_of_isUnwritable {failure : Failure} (h : failure.isUnwritable) :
    failure.isSpecial = false := by
  unfold Failure.isUnwritable at h
  split at h
  case h_5 => cases h
  all_goals rfl

namespace Builtin

theorem wholeOf_failsAs (value : Value) : (wholeOf site value).FailsAs (·.isUnwritable) := by
  unfold wholeOf
  split
  · exact .ok _
  · exact .error rfl

theorem floatOf_failsAs (value : Value) : (floatOf site value).FailsAs (·.isUnwritable) := by
  have hfault : (Attempt.ofFault value.float?).FailsAs (·.isUnwritable) := by
    cases value.float? with
    | ok number? => exact .ok _
    | error fault => exact .error rfl
  refine hfault.bind fun number? => ?_
  split
  · exact .ok _
  · exact .error rfl

theorem writeMoment_failsAs (value : Value) :
    (writeMoment site value).FailsAs (·.isUnwritable) := by
  refine (wholeOf_failsAs value).bind fun n => ?_
  split
  · exact .ok _
  · exact .error rfl

theorem writeRoman_failsAs (value : Value) : (writeRoman site value).FailsAs (·.isUnwritable) := by
  refine (wholeOf_failsAs value).bind fun n => ?_
  split
  · exact .error rfl
  · split
    · exact .error rfl
    · exact .ok _

theorem decorators_failsAs : ∀ decorator ∈ decorators, decorator.FailsAs (·.isUnwritable) := by
  have hwhole (f : Int → String) (names : List String) (description : String) :
      (numeric names description fun site value => do
        return f (← wholeOf site value)).FailsAs (·.isUnwritable) :=
    fun _ value => .lift (wholeOf_failsAs value)
  have hfloat (f : Float → String) (names : List String) (description : String) :
      (numeric names description fun site value => do
        return f (← floatOf site value)).FailsAs (·.isUnwritable) :=
    fun _ value => .lift (floatOf_failsAs value)
  have htext (f : Value → String) (names : List String) (description : String) :
      (general names description f).FailsAs (·.isUnwritable) := fun _ _ => .ok _
  simp only [decorators, List.forall_mem_cons]
  exact ⟨fun _ _ => .ok _, hwhole _ _ _, hwhole _ _ _, hwhole _ _ _, hfloat _ _ _,
    fun _ value => writeMoment_failsAs value, hfloat _ _ _, hfloat _ _ _, hfloat _ _ _,
    hfloat _ _ _, hfloat _ _ _, hwhole _ _ _, htext _ _ _, htext _ _ _, htext _ _ _, hfloat _ _ _,
    hwhole _ _ _, fun _ value => writeRoman_failsAs value, List.forall_mem_nil _⟩

end Builtin

theorem DecoratorTable.builtin_safe :
    ∀ decorator ∈ builtin.decorators, decorator.Safe hazard := by
  rw [builtin, decorators_ofList]
  intro decorator hdecorator site value
  refine Attempt.safe_of_failsAs (Builtin.decorators_failsAs decorator hdecorator site value) ?_
  intro failure hunwritable hholds
  exact absurd (hazard.special failure hholds)
    (Bool.eq_false_iff.mp (Failure.isSpecial_of_isUnwritable hunwritable))

end Calculator
