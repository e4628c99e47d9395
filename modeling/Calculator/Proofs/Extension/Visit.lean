import Calculator.Extension.Host

/-!
# Visits to foreign code

Foreign code with a time limit works on a copy of the variables. The copy takes their place when
the code returns in time, and whatever goes wrong before that leaves them as they were. The answer is
read after that. One that cannot be read is an error as well, and it comes when the variables have
changed.
-/

namespace Calculator

/-- The code ends with an answer, and not too late. -/
def Reply.AnswersInTime {α : Type} (reply : Reply α) (limit : Float) (a : α) : Prop :=
  reply.finish = .returned a ∧ ¬limit < reply.seconds

namespace Host

variable {α β : Type} {host : Host} {site : Site} {label : String} {bindings : Bindings}

/-! ## Answers -/

theorem finishWith_eq_ok {finish : Finish α} {a : α}
    (h : host.finishWith site label finish = .ok a) : finish = .returned a := by
  cases finish with
  | returned b =>
    cases h
    rfl
  | failed complaint => cases h
  | timedOut => cases h
  | raised failure => cases h

theorem visit_eq_ok {work : Bindings → Reply α} {a : α}
    (h : (host.visit site label work bindings).1 = .ok a) :
    (work bindings).finish = .returned a := by
  unfold visit at h
  dsimp only at h
  split at h
  · exact finishWith_eq_ok h
  · split at h
    · cases h
    · split at h
      case h_1 b hb =>
        cases h
        exact finishWith_eq_ok hb
      case h_2 => cases h

theorem visitFor_eq_ok {work : Bindings → Reply α} {read : α → Attempt β} {b : β}
    (h : (host.visitFor site label work read bindings).1 = .ok b) :
    ∃ a, (work bindings).finish = .returned a ∧ read a = .ok b := by
  obtain ⟨a, hvisit, hread⟩ := Attempt.bind_eq_ok.mp h
  exact ⟨a, visit_eq_ok hvisit, hread⟩

theorem valueOf_eq_ok {name : String} {plain : Plain} {value : Value}
    (h : valueOf site name plain = .ok value) : value ∈ plain.toValue? := by
  unfold valueOf at h
  split at h
  case h_1 hvalue =>
    cases h
    exact congrArg Except.toOption hvalue
  case h_2 => cases h

/-! ## Variables -/

theorem visit_bindings (host : Host) (site : Site) (label : String) (work : Bindings → Reply α)
    (bindings : Bindings) :
    (host.visit site label work bindings).2 = (work bindings).bindings ∨
      (host.visit site label work bindings).2 = bindings := by
  unfold visit
  dsimp only
  split
  · exact .inl rfl
  · split
    · exact .inr rfl
    · split
      · exact .inl rfl
      · exact .inr rfl

/-- With a time limit, the code answers in time on its copy, or nothing happens to the variables. -/
theorem visit_limited {limit : Float} (hlimit : host.limit = some limit)
    (work : Bindings → Reply α) (bindings : Bindings) :
    (∃ a, (work bindings).AnswersInTime limit a ∧
      host.visit site label work bindings = (.ok a, (work bindings).bindings)) ∨
    ∃ failure, host.visit site label work bindings = (.error failure, bindings) := by
  unfold visit
  rw [hlimit]
  dsimp only
  by_cases htime : limit < (work bindings).seconds
  · rw [if_pos htime]
    exact .inr ⟨_, rfl⟩
  · rw [if_neg htime]
    cases hfinish : host.finishWith site label (work bindings).finish with
    | ok a => exact .inl ⟨a, ⟨finishWith_eq_ok hfinish, htime⟩, rfl⟩
    | error failure => exact .inr ⟨failure, rfl⟩

/--
After an error the variables are as before the call, and after a result they are those of the copy.
The exception is an answer that comes in time and cannot be read: its error leaves those of the
copy.
-/
structure CopiesBack (limit : Float) (work? : Option (Bindings → Reply α)) (read : α → Attempt β)
    (call : Visit β) : Prop where
  error : ∀ bindings failure, (call bindings).1 = .error failure →
    (call bindings).2 = bindings ∨
      ∃ work ∈ work?, ∃ a, (work bindings).AnswersInTime limit a ∧ read a = .error failure ∧
        (call bindings).2 = (work bindings).bindings
  ok : ∀ bindings b, (call bindings).1 = .ok b →
    ∃ work ∈ work?, ∃ a, (work bindings).AnswersInTime limit a ∧ read a = .ok b ∧
      (call bindings).2 = (work bindings).bindings

theorem CopiesBack.refusal {limit : Float} (read : α → Attempt β) (failure : Failure) :
    CopiesBack limit none read fun bindings => (.error failure, bindings) :=
  ⟨fun _ _ _ => .inl rfl, fun _ _ h => by cases h⟩

theorem visitFor_copiesBack {limit : Float} (hlimit : host.limit = some limit) (site : Site)
    (label : String) (work : Bindings → Reply α) (read : α → Attempt β) :
    CopiesBack limit (some work) read (host.visitFor site label work read) := by
  have hcall (bindings : Bindings) :
      (∃ a, (work bindings).AnswersInTime limit a ∧
        host.visitFor site label work read bindings = (read a, (work bindings).bindings)) ∨
      ∃ failure, host.visitFor site label work read bindings = (.error failure, bindings) := by
    unfold visitFor
    rcases visit_limited hlimit work bindings with ⟨a, hanswer, hvisit⟩ | ⟨failure, hvisit⟩
    · rw [hvisit]
      exact .inl ⟨a, hanswer, rfl⟩
    · rw [hvisit]
      exact .inr ⟨failure, rfl⟩
  constructor
  case error =>
    intro bindings failure h
    rcases hcall bindings with ⟨a, hanswer, heq⟩ | ⟨_, heq⟩
    · rw [heq] at h ⊢
      exact .inr ⟨work, rfl, a, hanswer, h, rfl⟩
    · rw [heq]
      exact .inl rfl
  case ok =>
    intro bindings b h
    rcases hcall bindings with ⟨a, hanswer, heq⟩ | ⟨_, heq⟩
    · rw [heq] at h ⊢
      exact ⟨work, rfl, a, hanswer, h, rfl⟩
    · rw [heq] at h
      cases h

/--
Whatever foreign code does to its copy, and however it ends: a call with a time limit that fails
changes no variable, unless the code has answered in time and only its answer cannot be read.
-/
theorem limited_calls_copyBack (host : Host) (limit : Float) (hlimit : host.limit = some limit)
    (site : Site) (name : String) :
    (∀ arguments, CopiesBack limit ((host.function? name).map fun function => function arguments)
      (valueOf site name) (host.callFunction site name arguments)) ∧
    ∀ value, CopiesBack limit ((host.decorator? name).map fun decorator => decorator value)
      textOf (host.callDecorator site name value) := by
  constructor
  case left =>
    intro arguments
    unfold callFunction
    cases host.function? name with
    | none => exact .refusal _ _
    | some function => exact visitFor_copiesBack hlimit site name (function arguments) _
  case right =>
    intro value
    unfold callDecorator
    cases host.decorator? name with
    | none => exact .refusal _ _
    | some decorator => exact visitFor_copiesBack hlimit site ("@" ++ name) (decorator value) _

/-- A host that changes a variable and answers in time, and with nothing of use. -/
def carelessHost : Host :=
  ⟨[{ name := "careless"
      author := ""
      version := ""
      functions := [("keep", fun arguments bindings =>
        ⟨.returned (.foreign "bytes"), bindings.put "kept" (arguments.headD .none), 0.0⟩)]
      decorators := [("mark", fun value bindings =>
        ⟨.returned (.textless "ValueError"), bindings.put "marked" value, 0.0⟩)]
      source := none }], some 5.0⟩

theorem limited_calls_copyBack_careless :
    carelessHost.limit = some 5.0 ∧
    CopiesBack 5.0 (some fun bindings =>
        ⟨.returned (.foreign "bytes"), bindings.put "kept" (.int 5), 0.0⟩)
      (valueOf ⟨"keep(5)", 0⟩ "keep") (carelessHost.callFunction ⟨"keep(5)", 0⟩ "keep" [.int 5]) :=
  ⟨rfl, (limited_calls_copyBack carelessHost 5.0 rfl ⟨"keep(5)", 0⟩ "keep").1 [.int 5]⟩

/-- A failed call need not leave the variables as they were. -/
theorem limited_call_keeps_change :
    carelessHost.callFunction ⟨"keep(5)", 0⟩ "keep" [.int 5] [] =
      (complain ⟨"keep(5)", 0⟩
        "keep() returned an unsupported value: cannot convert bytes to a value",
        [("kept", .int 5)]) ∧
    carelessHost.callDecorator ⟨"5 @mark", 0⟩ "mark" (.int 5) [] =
      (.error (.fault (.foreign "ValueError")), [("marked", .int 5)]) := by
  constructor <;> rfl

end Host

end Calculator
