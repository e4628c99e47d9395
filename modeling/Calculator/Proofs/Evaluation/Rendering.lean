import Calculator.Proofs.Hazard.Guarantees

/-!
# What becomes of a value at the end of its line

A line that names no decorator is written by the one of its currency. Without a currency, anything
can be written. With one, only numbers can, and arrays and objects that hold nothing else.
-/

namespace Calculator

open Grammar Evaluation Number

/-! ## Amounts -/

namespace Value

mutual

/-- The first part that is no amount of money. -/
def unpriced? : Value → Option Value
  | array items => unpricedItem? items
  | object entries => unpricedAmong? entries
  | int n => if (toFloat? n).isSome then Option.none else some (int n)
  | float _ => Option.none
  | value => some value

def unpricedItem? : List Value → Option Value
  | [] => Option.none
  | item :: items => (unpriced? item).or (unpricedItem? items)

def unpricedAmong? : Entries → Option Value
  | [] => Option.none
  | (_, value) :: entries => (unpriced? value).or (unpricedAmong? entries)

end

/-- What is said about a part that is no amount. Of the numbers, only huge ones are none. -/
def unpricedFailure (site : Site) (part : Value) : Failure :=
  if part.isNumeric then .fault .beyondFloat else .located site (.valueType .number)

end Value

/-- Comes to something unless there is a part without a price. -/
def Attempt.Needs {α : Type} (site : Site) (unpriced? : Option Value) (attempt : Attempt α) :
    Prop :=
  match unpriced? with
  | some part => attempt = .error (part.unpricedFailure site)
  | none => ∃ a, attempt = .ok a

namespace Attempt.Needs

variable {α β γ : Type} {site : Site} {first? second? : Option Value} {first : Attempt α}
  {second : Attempt β}

theorem lift (f : α → β) (h : Needs site first? first) :
    Needs site first? (do return f (← first)) := by
  cases first? with
  | none =>
    obtain ⟨a, rfl⟩ := h
    exact ⟨f a, rfl⟩
  | some part =>
    have hfirst : first = .error (part.unpricedFailure site) := h
    subst hfirst
    rfl

/-- Of two attempts, the first one that fails says why. -/
theorem lift₂ (f : α → β → γ) (hfirst : Needs site first? first)
    (hsecond : Needs site second? second) :
    Needs site (first?.or second?) (do return f (← first) (← second)) := by
  cases first? with
  | none =>
    obtain ⟨a, rfl⟩ := hfirst
    exact hsecond.lift (f a)
  | some part =>
    have hfails : first = .error (part.unpricedFailure site) := hfirst
    subst hfails
    rfl

end Attempt.Needs

/-! ## Decorators of money -/

namespace Builtin

/-- One of the decorators that write amounts. -/
def moneyWriter (names : List String) (description symbol : String) : Decorator :=
  numeric names description (writeMoney symbol)

variable {site : Site}

theorem writeMoney_needs (symbol : String) {value : Value} (h : value.isNumeric) :
    (writeMoney symbol site value).Needs site value.unpriced? := by
  cases value with
  | int n =>
    rw [Value.unpriced?, writeMoney, floatOf, Value.float?, toFloat]
    cases toFloat? n with
    | some x => exact ⟨_, rfl⟩
    | none => rfl
  | float x => exact ⟨_, rfl⟩
  | _ => cases h

variable {names : List String} {description symbol : String}

theorem not_fits {value : Value} (h : value.isNumeric = false) :
    ¬(moneyWriter names description symbol).expected.fits value = true :=
  Bool.eq_false_iff.mp h

mutual

theorem renderPlural_needs : (value : Value) →
    ((moneyWriter names description symbol).renderPlural site value).Needs site value.unpriced?
  | .array items => by
    rw [Decorator.renderPlural, if_neg (not_fits rfl), Value.unpriced?]
    exact (renderItems_needs items).lift _
  | .object entries => by
    rw [Decorator.renderPlural, if_neg (not_fits rfl), Value.unpriced?]
    exact (renderEntries_needs entries).lift _
  | .int _ | .float _ => by
    rw [Decorator.renderPlural] <;> try simp
    exact writeMoney_needs symbol rfl
  | .none | .bool _ | .string _ | .name _ => by
    rw [Decorator.renderPlural] <;> try simp
    rfl

theorem renderItems_needs : (items : List Value) →
    ((moneyWriter names description symbol).renderItems site items).Needs site
      (Value.unpricedItem? items)
  | [] => ⟨[], rfl⟩
  | item :: items => (renderPlural_needs item).lift₂ _ (renderItems_needs items)

theorem renderEntries_needs : (entries : Entries) →
    ((moneyWriter names description symbol).renderEntries site entries).Needs site
      (Value.unpricedAmong? entries)
  | [] => ⟨[], rfl⟩
  | (_, value) :: entries => (renderPlural_needs value).lift₂ _ (renderEntries_needs entries)

end

end Builtin

namespace DecoratorTable

theorem builtin_call_default (site : Site) (value : Value) :
    builtin.call site Format.default.decorator value = .ok (Builtin.writeDefault value) := by
  cases value <;> rfl

theorem builtin_call_needs {format : Format} (h : format ≠ .default) (site : Site) (value : Value) :
    (builtin.call site format.decorator value).Needs site value.unpriced? := by
  have hfind : ∃ names description symbol, builtin.find? format.decorator =
      some (Builtin.moneyWriter names description symbol) := by
    cases format with
    | default => contradiction
    | _ => exact ⟨_, _, _, rfl⟩
  obtain ⟨names, description, symbol, hfind⟩ := hfind
  rw [call, hfind]
  exact Builtin.renderPlural_needs value

end DecoratorTable

/-! ## Lines without a decorator -/

/-- Nothing is a hazard. -/
def Hazard.nothing : Hazard := ⟨fun _ => False, fun _ => False.elim⟩

theorem Attempt.safe_nothing {α : Type} (attempt : Attempt α) : attempt.Safe .nothing := by
  cases attempt with
  | ok a => exact .ok trivial
  | error failure => exact .failed id

theorem quiet_nothing (setting : Setting) (deeper : Deeper) : Quiet .nothing setting deeper where
  functions function _ site values bound _ := by
    cases function.behaviour with
    | help => trivial
    | draw f => exact fun drawn => Attempt.safe_nothing _
    | _ => exact Attempt.safe_nothing _
  decorators decorator _ site value := Attempt.safe_nothing _
  host host _ := ⟨fun _ _ _ _ _ _ _ => id, fun _ _ _ _ _ _ _ => id⟩
  scripts source memory := Attempt.safe_nothing _

namespace Evaluation

variable {setting : Setting} {deeper : Deeper} {source : String} {tree : Tree} {site : Site}
  {children : List Tree} {outcomes : List Outcome} {memory after : Memory}

/-- The parts of a line come to what they are there for. -/
theorem roles_of_line (hparse : parse source = .ok tree)
    (hline : .node .line site children ∈ tree.children)
    (hwalk : walkAll setting deeper false children memory = (.ok outcomes, after)) :
    (outcomes.map (·.meaning)).map Meaning.role = children.map Tree.role := by
  have hsound : ∀ t ∈ tree.subtrees, t.Sound .nothing :=
    sound_of_parse hparse (fun _ _ _ _ _ hfalse => hfalse) fun _ _ _ _ _ _ hfalse => hfalse
  obtain ⟨place, trees, rfl⟩ := parse_eq_script hparse
  have hinside : ∀ t ∈ Tree.subtreesOf children, t.Sound .nothing := fun t ht =>
    hsound t (List.mem_cons_of_mem _
      (Tree.mem_subtreesOf.mpr ⟨_, hline, List.mem_cons_of_mem _ ht⟩))
  have hshape := (shape_of_parse hparse (List.mem_cons_of_mem _
    (Tree.mem_subtreesOf.mpr ⟨_, hline, List.mem_cons_self⟩))).1
  have havoids := walkAll_avoids (quiet_nothing setting deeper) false children hinside
    (hshape.role_ne_line (by decide)) memory
  rw [hwalk] at havoids
  cases havoids with
  | ok hroles => rw [hroles, rolesIn_false]

theorem role_eq_decorator {tree : Tree} (h : tree.role = .decorator) :
    ∃ site parts, tree = .node .decorator site parts := by
  obtain ⟨kind, site⟩ | ⟨rule, site, parts⟩ := tree
  · cases kind <;> cases h
  · cases rule <;> first | exact ⟨site, parts, rfl⟩ | cases h

/-- Without a decorator, the currency says how a line is written. -/
theorem lineDecorator_eq (hplain : ∀ place parts, .node .decorator place parts ∉ children)
    (hroles : (outcomes.map (·.meaning)).map Meaning.role = children.map Tree.role)
    (format : Format) : lineDecorator format outcomes = format.decorator := by
  rw [lineDecorator, List.findSome?_eq_none_iff.mpr, Option.getD_none]
  intro outcome houtcome
  split
  case h_2 => rfl
  case h_1 name hname =>
    have hmem : Role.decorator ∈ (outcomes.map (·.meaning)).map Meaning.role := by
      simp only [List.map_map, List.mem_map]
      exact ⟨outcome, houtcome, by simp [hname, Meaning.role]⟩
    rw [hroles, List.mem_map] at hmem
    obtain ⟨child, hchild, hrole⟩ := hmem
    obtain ⟨place, parts, rfl⟩ := role_eq_decorator hrole
    exact absurd hchild (hplain place parts)

theorem isFixed_decorator (format : Format) : isFixed format.decorator = true := by
  cases format <;> decide

theorem decorate_format (site : Site) (format : Format) (value : Value) :
    decorate setting site format.decorator value =
      ofAttempt (setting.decorators.call site format.decorator value) := by
  unfold decorate
  dsimp only
  rw [isFixed_decorator]

/-- The values of the line are there, and only its text is left to be written. -/
theorem line_of_plain (hplain : ∀ place parts, .node .decorator place parts ∉ children)
    (hroles : (outcomes.map (·.meaning)).map Meaning.role = children.map Tree.role)
    (hwalk : walkAll setting deeper false children memory = (.ok outcomes, after))
    (hnames : refuseNames children outcomes = .ok ()) :
    let format := Outcome.formatOf outcomes
    line setting deeper site children memory =
      ((fun text => ⟨text, lineValue outcomes, format⟩) <$>
        setting.decorators.call site format.decorator (lineValue outcomes), after) := by
  intro format
  rw [line, bind_apply, hwalk]
  dsimp only
  rw [hnames, lineDecorator_eq hplain hroles, decorate_format]
  cases setting.decorators.call site format.decorator (lineValue outcomes) <;> rfl

/--
Once the parts of a line have come to something, and none of them is a name that stands for nothing,
the line can still fail if it has a currency: then its value has to be a number, or an array or
object of such values. It fails because of the first part that is no amount. Without a currency, any
value is written.
-/
theorem line_written (hparse : parse source = .ok tree)
    (hline : .node .line site children ∈ tree.children)
    (hplain : ∀ place parts, .node .decorator place parts ∉ children)
    (hbuiltin : ∀ format : Format, setting.decorators.find? format.decorator =
      DecoratorTable.builtin.find? format.decorator)
    (hwalk : walkAll setting deeper false children memory = (.ok outcomes, after))
    (hnames : refuseNames children outcomes = .ok ()) :
    let value := lineValue outcomes
    let format := Outcome.formatOf outcomes
    let written := line setting deeper site children memory
    (format = .default → written = (.ok ⟨Builtin.writeDefault value, value, format⟩, after)) ∧
    (format ≠ .default →
      (value.unpriced? = none → ∃ text, written = (.ok ⟨text, value, format⟩, after)) ∧
      ∀ part, value.unpriced? = some part →
        written = (.error (part.unpricedFailure site), after)) := by
  intro value format written
  have hcall : setting.decorators.call site format.decorator value =
      DecoratorTable.builtin.call site format.decorator value := by
    rw [DecoratorTable.call, hbuiltin, DecoratorTable.call]
  have hwritten : written = ((fun text => ⟨text, value, format⟩) <$>
      setting.decorators.call site format.decorator value, after) :=
    line_of_plain hplain (roles_of_line hparse hline hwalk) hwalk hnames
  rw [hwritten, hcall]
  constructor
  case left =>
    intro hformat
    rw [hformat, DecoratorTable.builtin_call_default]
    rfl
  case right =>
    intro hformat
    have hneeds := DecoratorTable.builtin_call_needs hformat site value
    constructor
    · intro hpriced
      rw [hpriced] at hneeds
      obtain ⟨text, htext⟩ := hneeds
      exact ⟨text, by rw [htext]; rfl⟩
    · intro part hpart
      rw [hpart] at hneeds
      have hfails : DecoratorTable.builtin.call site format.decorator value = .error _ := hneeds
      rw [hfails]
      rfl

/-- The source is one line without a decorator, and its parts come to something that is accepted. -/
def comesTo (setting : Setting) (source : String) (accepts : List Outcome → Bool) : Bool :=
  match parse source with
  | .ok (.node .script _ [.node .line _ children]) =>
    children.all (! ·.isNode .decorator) &&
      match walkAll setting (deeperFor setting 0) false children .empty with
      | (.ok outcomes, _) => (refuseNames children outcomes).isOk && accepts outcomes
      | _ => false
  | _ => false

theorem exists_of_comesTo {accepts : List Outcome → Bool}
    (h : comesTo setting source accepts = true) : ∃ tree site children outcomes after,
      parse source = .ok tree ∧ .node .line site children ∈ tree.children ∧
      (∀ place parts, .node .decorator place parts ∉ children) ∧
      walkAll setting (deeperFor setting 0) false children .empty = (.ok outcomes, after) ∧
      refuseNames children outcomes = .ok () ∧ accepts outcomes = true := by
  unfold comesTo at h
  split at h
  case h_2 => cases h
  case h_1 place site children hparse =>
    obtain ⟨hall, hwalks⟩ := (Bool.and_eq_true _ _).mp h
    split at hwalks
    case h_2 => cases hwalks
    case h_1 outcomes after hwalk =>
      obtain ⟨hnames, haccepts⟩ := (Bool.and_eq_true _ _).mp hwalks
      refine ⟨_, site, children, outcomes, after, hparse, List.mem_singleton_self _, ?_, hwalk, ?_,
        haccepts⟩
      · intro place parts hmem
        simpa [Tree.isNode] using List.all_eq_true.mp hall _ hmem
      · cases hrefuse : refuseNames children outcomes with
        | ok _ => rfl
        | error failure =>
          rw [hrefuse] at hnames
          cases hnames

/-- A price and a number beside it make an array of amounts. -/
theorem line_written_prices :
    let setting : Setting := ⟨50, .builtin, .builtin, none, .still⟩
    ∃ tree site children outcomes after text,
      parse "[$2, [3]]" = .ok tree ∧ .node .line site children ∈ tree.children ∧
      (∀ place parts, .node .decorator place parts ∉ children) ∧
      walkAll setting (deeperFor setting 0) false children .empty = (.ok outcomes, after) ∧
      refuseNames children outcomes = .ok () ∧
      line setting (deeperFor setting 0) site children .empty =
        (.ok ⟨text, lineValue outcomes, .dollars⟩, after) := by
  intro setting
  have hrun : comesTo setting "[$2, [3]]" (fun outcomes =>
      Outcome.formatOf outcomes = .dollars && (lineValue outcomes).unpriced?.isNone) = true := by
    decide +kernel
  obtain ⟨tree, site, children, outcomes, after, hparse, hline, hplain, hwalk, hnames, hmoney⟩ :=
    exists_of_comesTo hrun
  simp only [Bool.and_eq_true, decide_eq_true_eq, Option.isNone_iff_eq_none] at hmoney
  obtain ⟨hformat, hpriced⟩ := hmoney
  have hbuiltin : ∀ format : Format, setting.decorators.find? format.decorator =
      DecoratorTable.builtin.find? format.decorator := fun _ => rfl
  obtain ⟨-, hwritten⟩ := line_written hparse hline hplain hbuiltin hwalk hnames
  obtain ⟨text, htext⟩ := (hwritten (by rw [hformat]; decide)).1 hpriced
  rw [hformat] at htext
  exact ⟨tree, site, children, outcomes, after, text, hparse, hline, hplain, hwalk, hnames, htext⟩

def isTrue : Value → Bool
  | .bool holds => holds
  | _ => false

theorem eq_of_isTrue {value : Value} (h : isTrue value = true) : value = .bool true := by
  cases value with
  | bool holds => exact congrArg Value.bool h
  | _ => cases h

/-- The attempt fails at the site, where it finds no value of the kind that is expected. -/
def refuses {α : Type} (site : Site) (expected : Expected) : Attempt α → Bool
  | .error (.error (.valueType other) (some place)) => other = expected && place = site
  | _ => false

theorem eq_of_refuses {α : Type} {site : Site} {expected : Expected} {attempt : Attempt α}
    (h : refuses site expected attempt = true) :
    attempt = .error (.located site (.valueType expected)) := by
  unfold refuses at h
  split at h
  case h_1 other place =>
    obtain ⟨rfl, rfl⟩ := (Bool.and_eq_true _ _).mp h |>.imp of_decide_eq_true of_decide_eq_true
    rfl
  case h_2 => cases h

/-- The price is gone from the value, and its currency has stayed with the line. -/
theorem line_unwritten_truth :
    let setting : Setting := ⟨50, .builtin, .builtin, none, .still⟩
    (∃ tree site children outcomes after,
      parse "bool($5)" = .ok tree ∧ .node .line site children ∈ tree.children ∧
      (∀ place parts, .node .decorator place parts ∉ children) ∧
      walkAll setting (deeperFor setting 0) false children .empty = (.ok outcomes, after) ∧
      refuseNames children outcomes = .ok () ∧ lineValue outcomes = .bool true) ∧
    (evaluate setting "bool($5)" .empty).1 =
      .error (.located ⟨"bool($5)", 0⟩ (.valueType .number)) := by
  intro setting
  have hrun : comesTo setting "bool($5)" (fun outcomes => isTrue (lineValue outcomes)) = true := by
    decide +kernel
  have hfails : refuses ⟨"bool($5)", 0⟩ .number (evaluate setting "bool($5)" .empty).1 = true := by
    decide +kernel
  obtain ⟨tree, site, children, outcomes, after, hparse, hline, hplain, hwalk, hnames, htrue⟩ :=
    exists_of_comesTo hrun
  exact ⟨⟨tree, site, children, outcomes, after, hparse, hline, hplain, hwalk, hnames,
    eq_of_isTrue htrue⟩, eq_of_refuses hfails⟩

end Evaluation

end Calculator
