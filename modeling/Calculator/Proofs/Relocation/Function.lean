import Calculator.Decorator.Builtins
import Calculator.Function.Builtins
import Calculator.Proofs.Relocation.Operator

/-!
# Functions and decorators at other places

All functions and decorators that are always there use their place only to say where a failure is.
-/

namespace Calculator

open Attempt

variable {move : Site → Site} {site : Site}

/-! ## Results at two places -/

/-- The same failure, with its place or where it has been before. -/
def Failure.Carried (move : Site → Site) (first second : Failure) : Prop :=
  second = first ∨ second = first.relocate move

/-- The same result, or the same failure with its place or where it has been before. -/
inductive Attempt.Carried {α : Type} (move : Site → Site) : Attempt α → Attempt α → Prop
  | ok (a : α) : Carried move (.ok a) (.ok a)
  | error {first second : Failure} (h : first.Carried move second) :
      Carried move (.error first) (.error second)

namespace Attempt.Carried

variable {α β : Type}

theorem refl (attempt : Attempt α) : Carried move attempt attempt := by
  cases attempt with
  | ok a => exact .ok a
  | error failure => exact .error (.inl rfl)

theorem relocate (attempt : Attempt α) : Carried move attempt (attempt.relocate move) := by
  cases attempt with
  | ok a => exact .ok a
  | error failure => exact .error (.inr rfl)

theorem of_relocate {first second : Attempt α} (h : second = first.relocate move) :
    Carried move first second := h ▸ relocate first

theorem fail (site : Site) (cause : Cause) :
    Carried move (Attempt.fail site cause : Attempt α) (Attempt.fail (site.relocate move) cause) :=
  of_relocate rfl

theorem bind {first second : Attempt α} {f g : α → Attempt β} (h : Carried move first second)
    (hnext : ∀ a, Carried move (f a) (g a)) : Carried move (first >>= f) (second >>= g) := by
  cases h with
  | ok a => exact hnext a
  | error h => exact .error h

end Attempt.Carried

/-- The same call at another place. -/
def Call.relocate (move : Site → Site) (call : Call) : Call :=
  { call with site := call.site.relocate move }

/-- The function uses its place only to say where a failure is. -/
def Behaviour.Carries (move : Site → Site) : Behaviour → Prop
  | compute f => ∀ call, Attempt.Carried move (f call) (f (call.relocate move))
  | consult f => ∀ world call,
      Attempt.Carried move (f world call) (f world (call.relocate move))
  | draw f => ∀ drawn call, Attempt.Carried move (f drawn call) (f drawn (call.relocate move))
  | help | run | runFile => True

/-- The decorator uses its place only to say where a failure is. -/
def Decorator.Carries (move : Site → Site) (decorator : Decorator) : Prop :=
  ∀ site value, Attempt.Carried move (decorator.render site value)
    (decorator.render (site.relocate move) value)

/-- No function and no decorator of the tables comes to something else where the move leads. -/
structure Setting.Carries (move : Site → Site) (setting : Setting) : Prop where
  functions : ∀ function ∈ setting.functions.functions, function.behaviour.Carries move
  decorators : ∀ decorator ∈ setting.decorators.decorators, decorator.Carries move

/-! ## Decorators -/

namespace Decorator

variable {decorator : Decorator}

mutual

theorem renderPlural_carried (h : decorator.Carries move) : ∀ value,
    Attempt.Carried move (decorator.renderPlural site value)
      (decorator.renderPlural (site.relocate move) value)
  | .array items => by
    unfold renderPlural
    split
    · exact h site _
    · exact .bind (renderItems_carried h items) fun texts => .refl _
  | .object entries => by
    unfold renderPlural
    split
    · exact h site _
    · exact .bind (renderEntries_carried h entries) fun texts => .refl _
  | .none | .bool _ | .int _ | .float _ | .string _ | .name _ => by
    unfold renderPlural
    split
    · exact h site _
    · exact .fail site _

theorem renderItems_carried (h : decorator.Carries move) : ∀ items,
    Attempt.Carried move (decorator.renderItems site items)
      (decorator.renderItems (site.relocate move) items)
  | [] => .ok []
  | item :: items => by
    unfold renderItems
    exact .bind (renderPlural_carried h item) fun text =>
      .bind (renderItems_carried h items) fun texts => .refl _

theorem renderEntries_carried (h : decorator.Carries move) : ∀ entries,
    Attempt.Carried move (decorator.renderEntries site entries)
      (decorator.renderEntries (site.relocate move) entries)
  | [] => .ok []
  | (_, value) :: entries => by
    unfold renderEntries
    exact .bind (renderPlural_carried h value) fun text =>
      .bind (renderEntries_carried h entries) fun texts => .refl _

end

theorem call_carried (h : decorator.Carries move) (value : Value) :
    Attempt.Carried move (decorator.call site value)
      (decorator.call (site.relocate move) value) := by
  unfold call
  split
  · exact renderPlural_carried h value
  · split
    · exact h site value
    · exact .fail site _

end Decorator

theorem DecoratorTable.call_carried {table : DecoratorTable}
    (h : ∀ decorator ∈ table.decorators, decorator.Carries move) (name : String) (value : Value) :
    Attempt.Carried move (table.call site name value)
      (table.call (site.relocate move) name value) := by
  unfold call
  split
  case h_1 decorator hfound =>
    obtain ⟨place, -, hdecorator⟩ := Option.bind_eq_some_iff.mp hfound
    exact Decorator.call_carried (h decorator (List.mem_of_getElem? hdecorator)) value
  case h_2 => exact .fail site _

/-! ## Functions -/

/-- At another place, all that the function gives is a failure at that place. -/
def Relocates {α : Type} (move : Site → Site) (f : Call → Attempt α) : Prop :=
  ∀ call, f (call.relocate move) = (f call).relocate move

theorem mapNumbers_relocate {f g : Value → Attempt Value}
    (h : ∀ v, g v = (f v).relocate move) (value : Value) :
    mapNumbers (site.relocate move) g value = (mapNumbers site f value).relocate move := by
  induction value using Arithmetic.parts_induction with
  | scalar value hscalar =>
    cases value with
    | int | float => exact h _
    | array | object => cases hscalar
    | _ => rfl
  | array items ih =>
    rw [mapNumbers_array, mapNumbers_array]
    exact map_mapM_relocate Value.array ih
  | object entries ih =>
    rw [mapNumbers_object, mapNumbers_object]
    exact map_mapM_relocate (Arithmetic.underKeys entries) ih

@[simp]
theorem asFloat_relocate (value : Value) :
    asFloat (site.relocate move) value = (asFloat site value).relocate move := by
  unfold asFloat
  split <;> simp

@[simp]
theorem mapFloats_relocate (f : Float → Float) (value : Value) :
    mapFloats (site.relocate move) f value = (mapFloats site f value).relocate move :=
  mapNumbers_relocate (by simp) value

namespace Call

variable {call : Call} {α : Type}

@[simp]
theorem relocate_site : (call.relocate move).site = call.site.relocate move := rfl

@[simp]
theorem relocate_signature : (call.relocate move).signature = call.signature := rfl

@[simp]
theorem relocate_first? (name : String) : (call.relocate move).first? name = call.first? name := rfl

@[simp]
theorem relocate_firstOr (name : String) (absent : Value) :
    (call.relocate move).firstOr name absent = call.firstOr name absent := rfl

@[simp]
theorem relocate_all (name : String) : (call.relocate move).all name = call.all name := rfl

@[simp]
theorem relocate_fail (cause : Cause) :
    ((call.relocate move).fail cause : Attempt α) = (call.fail cause).relocate move := rfl

@[simp]
theorem relocate_outOfRange (position : Nat) :
    ((call.relocate move).outOfRange position : Attempt α) =
      (call.outOfRange position).relocate move := rfl

/-- A missing argument is missing nowhere. -/
@[simp]
theorem relocate_required (name : String) :
    (call.relocate move).required name = (call.required name).relocate move := by
  change call.arguments.required name = (call.arguments.required name).relocate move
  unfold Arguments.required
  split <;> rfl

end Call

/-- A failure to read a file is where the file is asked for, and a fault is nowhere. -/
@[simp]
theorem World.sourceFor_relocate (world : World) (path : Path) :
    world.sourceFor (site.relocate move) path = (world.sourceFor site path).relocate move := by
  unfold sourceFor
  split
  · rfl
  · rename_i problem _
    cases problem <;> rfl

namespace Signature

theorem bindFrom_relocate (signature : Signature) (i : Nat) (arguments : Arguments)
    (values : List Value) : signature.bindFrom (site.relocate move) i arguments values =
      (signature.bindFrom site i arguments values).relocate move := by
  fun_induction bindFrom site signature i arguments values with
  | case1 => rfl
  | case2 i arguments value values hparameter => simp [bindFrom, hparameter]
  | case3 i arguments value values parameter hparameter hadmits ih =>
    simp [bindFrom, hparameter, hadmits, ih]
  | case4 i arguments value values parameter hparameter hadmits =>
    simp [bindFrom, hparameter, hadmits]

theorem bind_relocate (signature : Signature) (values : List Value) :
    signature.bind (site.relocate move) values = (signature.bind site values).relocate move := by
  simp [bind, bindFrom_relocate]

end Signature

namespace Builtin

/-! ### Mathematics -/

theorem toBool_relocates : Relocates move toBool := fun _ => by simp [toBool]

theorem toArray_relocates : Relocates move toArray := fun _ => by simp [toArray]

theorem toInt_relocates : Relocates move toInt := by
  intro call
  refine bind_relocate (Call.relocate_required _) fun value => ?_
  split <;> simp

theorem toFloatValue_relocates : Relocates move toFloatValue := by
  intro call
  refine bind_relocate (Call.relocate_required _) fun value =>
    bind_relocate (relocate_ofFault _).symm fun x => ?_
  split <;> simp

theorem extreme_relocates (better : Value → Value → Bool) : Relocates move (extreme better) := by
  intro call
  simp only [extreme, Call.relocate_all, Call.relocate_fail, relocate_ite]
  congr 1
  split <;> simp

theorem toWhole_relocates (whole : Float → Except Fault Int) :
    Relocates move fun call => toWhole call whole := by
  intro call
  refine bind_relocate (Call.relocate_required _) fun value =>
    mapNumbers_relocate (fun v => ?_) value
  split <;> simp

theorem round_relocates : Relocates move round := by
  intro call
  simp only [round, Call.relocate_firstOr]
  split
  · rw [relocate_ite, Call.relocate_outOfRange]
    congr 1
    exact bind_relocate (Call.relocate_required _) (mapNumbers_relocate (by simp))
  · simp

theorem absolute_relocates : Relocates move absolute := by
  intro call
  refine bind_relocate (Call.relocate_required _) fun value =>
    mapNumbers_relocate (fun v => ?_) value
  split <;> simp

theorem floatFunction_relocates (f : Float → Float) : Relocates move (floatFunction f) :=
  fun _ => by simp [floatFunction]

theorem base_relocates : Relocates move base := fun _ => by simp [base]

theorem baseFunction_relocates (f : Float → Float → Float) :
    Relocates move fun call => (do floatFunction (f (← base call)) call) := by
  intro call
  simp [base_relocates call, floatFunction_relocates _ call]

/-! ### Arrays and objects -/

theorem input_relocates : Relocates move input := fun _ => by simp [input]

theorem len_relocates : Relocates move len := fun call => by simp [len, input_relocates call]

theorem isEmpty_relocates : Relocates move isEmpty :=
  fun call => by simp [isEmpty, input_relocates call]

theorem someItems_relocates : Relocates move someItems :=
  fun call => by simp [someItems, input_relocates call]

theorem pop_relocates : Relocates move pop := fun call => by simp [pop, someItems_relocates call]

theorem dequeue_relocates : Relocates move dequeue :=
  fun call => by simp [dequeue, someItems_relocates call]

theorem push_relocates : Relocates move push := fun call => by simp [push, input_relocates call]

theorem element_relocates : Relocates move element := by
  intro call
  refine bind_relocate (input_relocates call) fun container =>
    bind_relocate (Call.relocate_required _) fun index => ?_
  split <;> simp

theorem remove_relocates : Relocates move remove := by
  intro call
  refine bind_relocate (input_relocates call) fun container =>
    bind_relocate (Call.relocate_required _) fun index => ?_
  split <;> simp

theorem merge_relocates : Relocates move merge := fun _ => by simp [merge]

theorem keys_relocates : Relocates move keys := fun call => by simp [keys, input_relocates call]

theorem values_relocates : Relocates move values :=
  fun call => by simp [values, input_relocates call]

/-! ### Strings -/

theorem textOf_relocates (name : String) : Relocates move fun call => textOf call name :=
  fun _ => by simp [textOf]

theorem contains_relocates : Relocates move contains := by
  intro call
  refine bind_relocate (Call.relocate_required _) fun source =>
    bind_relocate (Call.relocate_required _) fun sought => ?_
  split <;> simp

theorem strlen_relocates : Relocates move strlen := fun _ => by simp [strlen, textOf]

theorem mapText_relocates (name : String) (f : String → String) : Relocates move (mapText name f) :=
  fun _ => by simp [mapText, textOf]

theorem upTo_relocates (position limit : Nat) (value : Value) :
    Relocates move fun call => upTo call position limit value := by
  intro call
  dsimp only [upTo]
  split <;> simp

theorem substr_relocates : Relocates move substr := by
  intro call
  refine bind_relocate (textOf_relocates _ call) fun s =>
    bind_relocate (Call.relocate_required _) fun start =>
      bind_relocate (upTo_relocates _ _ _ call) fun place => ?_
  rw [Call.relocate_first?]
  split
  · rfl
  · exact bind_relocate (upTo_relocates _ _ _ call) fun length => rfl

theorem regex_relocates : Relocates move regex := by
  intro call
  refine bind_relocate (textOf_relocates _ call) fun pattern =>
    bind_relocate (textOf_relocates _ call) fun subject => ?_
  rw [Call.relocate_firstOr]
  dsimp only
  split
  · simp
  · rfl
  · split <;> simp

theorem decoded_relocates (kind : String) (decode? : String → Option String) :
    Relocates move (decoded kind decode?) := by
  intro call
  refine bind_relocate (textOf_relocates _ call) fun s => ?_
  split <;> simp

/-! ### Chance and files -/

theorem digestOf_relocates (digest : List UInt8 → List UInt8) : Relocates move (digestOf digest) :=
  fun _ => rfl

theorem choose_relocates (drawn : Nat) : Relocates move (choose drawn) := by
  intro call
  simp only [choose, Call.relocate_all]
  split <;> simp

theorem bound_relocates (position : Nat) (name : String) :
    Relocates move fun call => bound call position name := by
  intro call
  simp only [bound, Call.relocate_first?]
  split
  · simp
  · split <;> simp

theorem rand_relocates (drawn : Nat) : Relocates move (rand drawn) := by
  intro call
  refine bind_relocate (bound_relocates _ _ call) fun m =>
    bind_relocate (bound_relocates _ _ call) fun n => ?_
  split <;> simp

theorem tail_relocates (world : World) : Relocates move (tail world) := by
  intro call
  refine bind_relocate (Call.relocate_required _) fun value => ?_
  rw [Call.relocate_firstOr, Call.relocate_site]
  dsimp only
  split <;> simp

/-! ### Decorators -/

@[simp]
theorem wholeOf_relocate (value : Value) :
    wholeOf (site.relocate move) value = (wholeOf site value).relocate move := by
  unfold wholeOf
  split <;> simp

@[simp]
theorem floatOf_relocate (value : Value) :
    floatOf (site.relocate move) value = (floatOf site value).relocate move := by
  unfold floatOf
  refine bind_relocate (relocate_ofFault _).symm fun x => ?_
  split <;> simp

theorem writeMoment_relocate (value : Value) :
    writeMoment (site.relocate move) value = (writeMoment site value).relocate move := by
  refine bind_relocate (wholeOf_relocate value) fun n => ?_
  split <;> simp

theorem decorators_carries : ∀ decorator ∈ decorators, decorator.Carries move := by
  simp only [decorators, List.forall_mem_cons, numeric, general, Decorator.Carries]
  refine ⟨fun _ _ => .refl _, ?_, ?_, ?_, ?_, ?_, ?_, ?_, ?_, ?_, ?_, ?_, fun _ _ => .refl _,
    fun _ _ => .refl _, fun _ _ => .refl _, ?_, ?_, ?_, List.forall_mem_nil _⟩
  case refine_5 => exact fun _ value => .of_relocate (writeMoment_relocate value)
  all_goals
    intro site value
    apply Attempt.Carried.of_relocate
    simp [writeBits, writeMoney, writePercentage, writeOrdinal, writeRoman]

/-! ### Tables -/

theorem carries_of_relocates {f : Call → Attempt Value} (h : Relocates move f) :
    (Behaviour.compute f).Carries move := fun call => .of_relocate (h call)

theorem mathFunctions_carries :
    ∀ function ∈ mathFunctions, function.behaviour.Carries move := by
  simp only [mathFunctions, List.forall_mem_cons]
  exact ⟨carries_of_relocates toBool_relocates, carries_of_relocates toArray_relocates,
    carries_of_relocates toInt_relocates, carries_of_relocates toFloatValue_relocates,
    carries_of_relocates (extreme_relocates _), carries_of_relocates (extreme_relocates _),
    carries_of_relocates (toWhole_relocates _), carries_of_relocates (toWhole_relocates _),
    carries_of_relocates round_relocates, carries_of_relocates absolute_relocates,
    carries_of_relocates (floatFunction_relocates _),
    carries_of_relocates (floatFunction_relocates _),
    carries_of_relocates (baseFunction_relocates logarithm),
    carries_of_relocates (floatFunction_relocates _),
    carries_of_relocates (baseFunction_relocates root),
    List.forall_mem_nil _⟩

theorem angleFunctions_carries :
    ∀ function ∈ angleFunctions, function.behaviour.Carries move := by
  have hangle : ∀ name f description, (angleFunction name f description).behaviour.Carries move :=
    fun _ f _ => carries_of_relocates (floatFunction_relocates f)
  simp only [angleFunctions, List.forall_mem_cons]
  exact ⟨hangle _ _ _, hangle _ _ _, hangle _ _ _, hangle _ _ _, hangle _ _ _, hangle _ _ _,
    hangle _ _ _, hangle _ _ _, hangle _ _ _, hangle _ _ _, hangle _ _ _, List.forall_mem_nil _⟩

theorem collectionFunctions_carries :
    ∀ function ∈ collectionFunctions, function.behaviour.Carries move := by
  simp only [collectionFunctions, List.forall_mem_cons]
  exact ⟨carries_of_relocates len_relocates, carries_of_relocates isEmpty_relocates,
    carries_of_relocates pop_relocates, carries_of_relocates push_relocates,
    carries_of_relocates dequeue_relocates, carries_of_relocates push_relocates,
    carries_of_relocates remove_relocates, carries_of_relocates element_relocates,
    carries_of_relocates merge_relocates, carries_of_relocates keys_relocates,
    carries_of_relocates values_relocates, List.forall_mem_nil _⟩

theorem stringFunctions_carries :
    ∀ function ∈ stringFunctions, function.behaviour.Carries move := by
  simp only [stringFunctions, List.forall_mem_cons]
  exact ⟨carries_of_relocates contains_relocates, carries_of_relocates fun _ => rfl,
    carries_of_relocates strlen_relocates, carries_of_relocates (mapText_relocates _ _),
    carries_of_relocates (mapText_relocates _ _), carries_of_relocates (mapText_relocates _ _),
    carries_of_relocates substr_relocates, carries_of_relocates regex_relocates,
    carries_of_relocates (mapText_relocates _ _), carries_of_relocates (decoded_relocates _ _),
    carries_of_relocates (mapText_relocates _ _), carries_of_relocates (decoded_relocates _ _),
    List.forall_mem_nil _⟩

theorem cryptographyFunctions_carries :
    ∀ function ∈ cryptographyFunctions, function.behaviour.Carries move := by
  simp only [cryptographyFunctions, List.forall_mem_cons]
  exact ⟨fun drawn call => .of_relocate (choose_relocates drawn call),
    fun drawn call => .of_relocate (rand_relocates drawn call),
    carries_of_relocates (digestOf_relocates _), carries_of_relocates (digestOf_relocates _),
    List.forall_mem_nil _⟩

theorem systemFunctions_carries :
    ∀ function ∈ systemFunctions, function.behaviour.Carries move := by
  simp only [systemFunctions, List.forall_mem_cons]
  exact ⟨fun _ _ => .refl _, fun world call => .of_relocate (tail_relocates world call),
    List.forall_mem_nil _⟩

theorem engineFunctions_carries :
    ∀ function ∈ engineFunctions, function.behaviour.Carries move := by
  simp only [engineFunctions, List.forall_mem_cons]
  exact ⟨trivial, trivial, trivial, List.forall_mem_nil _⟩

end Builtin

/-- The tables that are always there hold nothing that looks at its place. -/
theorem Setting.carries_builtin (maxDepth : Nat) (host : Option Host) (world : World) :
    Setting.Carries move ⟨maxDepth, .builtin, .builtin, host, world⟩ := by
  constructor
  case functions =>
    simp only [FunctionTable.builtin, List.forall_mem_append]
    exact ⟨⟨⟨⟨⟨⟨Builtin.mathFunctions_carries, Builtin.angleFunctions_carries⟩,
      Builtin.collectionFunctions_carries⟩, Builtin.stringFunctions_carries⟩,
      Builtin.engineFunctions_carries⟩, Builtin.cryptographyFunctions_carries⟩,
      Builtin.systemFunctions_carries⟩
  case decorators =>
    change ∀ decorator ∈ (DecoratorTable.ofList Builtin.decorators).decorators, _
    rw [DecoratorTable.decorators_ofList]
    exact Builtin.decorators_carries

end Calculator
