import Calculator.Proofs.Arithmetic.Exactness
import Calculator.Proofs.Evaluation.Expression
import Calculator.Proofs.Grammar.Written

/-!
# Reading written values

What is written for truths, integers and arrays comes to the same value when it is evaluated. The
lowest integer is the exception. The sign is an operator, so that its magnitude is read on its own,
and that is one more than the highest integer.
-/

namespace Calculator

open Grammar Evaluation Number Text

variable {chars : Array Char} {index : Nat} {value item : Value} {items : List Value}

namespace Value

/-! ## What is refused -/

/-- The lowest integer without its sign. -/
def lowest : String := "9223372036854775808"

mutual

/-- The place of the first magnitude that is out of range. -/
def refused? (index : Nat) : Value → Option Nat
  | int n => if n = intMin then some (index + 1) else .none
  | array [] => .none
  | array (item :: items) =>
    (item.refused? (index + 1)).or (moreRefused? (index + 1 + item.text.length) items)
  | _ => .none

def moreRefused? (index : Nat) : List Value → Option Nat
  | [] => .none
  | item :: items =>
    (item.refused? (index + 2)).or (moreRefused? (index + 2 + item.text.length) items)

end

mutual

theorem isSome_refused? : (value : Value) → value.isReadable = true → (index : Nat) →
    ((value.refused? index).isSome ↔ int intMin ∈ value.leaves)
  | bool b, _, _ => by simp [refused?, leaves]
  | int n, _, _ => by
    have hleaves : (int n).leaves = [int n] := leaves_of_not_compound rfl
    rw [refused?, hleaves, List.mem_singleton, Value.int.injEq, Option.isSome_ite, eq_comm]
  | array [], _, _ => by simp [refused?]
  | array (item :: items), h, index => by
    obtain ⟨hitem, hitems⟩ := Bool.and_eq_true_iff.mp h
    rw [refused?, Option.isSome_or, Bool.or_eq_true, isSome_refused? item hitem,
      isSome_moreRefused? items hitems]
    simp [leaves, itemLeaves]

theorem isSome_moreRefused? : (items : List Value) → areReadable items = true → (index : Nat) →
    ((moreRefused? index items).isSome ↔ int intMin ∈ itemLeaves items)
  | [], _, _ => by simp [moreRefused?, itemLeaves]
  | item :: items, h, index => by
    obtain ⟨hitem, hitems⟩ := Bool.and_eq_true_iff.mp h
    rw [moreRefused?, Option.isSome_or, Bool.or_eq_true, isSome_refused? item hitem,
      isSome_moreRefused? items hitems]
    simp [itemLeaves]

end

end Value

/-! ## Trees that come to something -/

namespace Evaluation

variable {α β γ : Type} {setting : Setting} {deeper : Deeper} {tree : Tree} {trees : List Tree}
  {outcome : Outcome} {outcomes : List Outcome} {place? other? : Option Nat}

/-- Comes to the result unless a magnitude is refused. -/
def orRefuse (place? : Option Nat) (result : α) : Evaluation α :=
  ofAttempt (.orElseFail (place?.map fun place => .located ⟨Value.lowest, place⟩ .overflow) result)

theorem orRefuse_bind (place? other? : Option Nat) (f : α → β → γ) (a : α) (b : β) :
    (do return f (← orRefuse place? a) (← orRefuse other? b)) =
      orRefuse (place?.or other?) (f a b) := by
  cases place? with
  | none => cases other? <;> rfl
  | some place => rfl

theorem walkAll_nil (setting : Setting) (deeper : Deeper) :
    walkAll setting deeper false [] = orRefuse none [] := rfl

theorem walkAll_cons (hfirst : walk setting deeper tree = orRefuse place? outcome)
    (hothers : walkAll setting deeper false trees = orRefuse other? outcomes) :
    walkAll setting deeper false (tree :: trees) =
      orRefuse (place?.or other?) (outcome :: outcomes) := by
  have hbare : bareName false tree = none := rfl
  rw [walkAll, hbare, Option.elim_none, hfirst, hothers]
  exact orRefuse_bind place? other? List.cons outcome outcomes

/-- Nothing can go wrong at the nodes themselves. -/
theorem walk_finish {rule : Rule} (hrule : rule ∈ [.prefixed, .arguments, .array]) (site : Site)
    (hbelow : walkAll setting deeper false trees = orRefuse place? outcomes)
    (hnames : ∀ outcome ∈ outcomes, outcome.name? = none)
    (htask : task site rule trees outcomes = .ok (.finish outcome)) :
    walk setting deeper (.node rule site trees) = orRefuse place? outcome := by
  have husual : ∀ rule ∈ [Rule.prefixed, .arguments, .array], slip? rule = none ∧
      startsWithName rule = false ∧ rule ≠ .call ∧ rule ≠ .ternary ∧ rule ≠ .definition ∧
      rule ≠ .decorator := by
    decide
  obtain ⟨hslip, hfirst, hcall, hternary, hdefinition, hdecorator⟩ := husual rule hrule
  have hcheck : checkNames rule trees outcomes = .ok () := by
    simp [checkNames, asksForHelp, hcall, refuseNames_of_forall hnames]
  rw [walk_node setting deeper hternary hdefinition hdecorator, hfirst, node, hslip, hbelow]
  -- A refusal below comes before anything is done at the node.
  cases place? with
  | none =>
    change (do
      ofAttempt (checkNames rule trees outcomes)
      combine setting deeper site rule trees outcomes) = _
    rw [hcheck, combine, htask]
    rfl
  | some place => rfl

end Evaluation

namespace Value

/-! ## What the trees come to -/

/-- What the trees behind the first item come to. -/
def moreOutcomes (items : List Value) : List Outcome :=
  items.flatMap fun item => [⟨.mark .comma ",", .default⟩, .ofValue item]

theorem operands_moreOutcomes (site : Site) (item : Value) (items : List Value) :
    Combination.operands site ((.ofValue item :: moreOutcomes items).map Outcome.meaning) =
      .ok (item :: items) := by
  induction items generalizing item with
  | nil => rfl
  | cons next items ih =>
    change (do return item :: (← Combination.operands site
      ((Outcome.ofValue next :: moreOutcomes items).map Outcome.meaning))) = _
    rw [ih]
    rfl

theorem formatOf_of_default {outcomes : List Outcome}
    (h : ∀ outcome ∈ outcomes, outcome.format = .default) :
    Outcome.formatOf outcomes = .default := by
  have hnone : (outcomes.map (·.format)).find? (· ≠ .default) = Option.none := by
    simpa [List.find?_eq_none] using h
  rw [Outcome.formatOf, hnone]
  rfl

theorem name?_of_isReadable (h : value.isReadable = true) : value.name? = Option.none := by
  cases value with
  | name => cases h
  | _ => rfl

theorem plain_moreOutcomes (items : List Value) (h : areReadable items = true) :
    ∀ outcome ∈ moreOutcomes items, outcome.name? = Option.none ∧ outcome.format = .default := by
  induction items with
  | nil => exact List.forall_mem_nil _
  | cons item items ih =>
    obtain ⟨hitem, hitems⟩ := Bool.and_eq_true_iff.mp h
    exact List.forall_mem_cons.mpr ⟨⟨rfl, rfl⟩,
      List.forall_mem_cons.mpr ⟨⟨name?_of_isReadable hitem, rfl⟩, ih hitems⟩⟩

variable (setting : Setting) (deeper : Deeper)

theorem walk_mark (kind : Terminal) (text : String) (index : Nat)
    (h : kind ∈ [.minus, .comma, .lsqb, .rsqb]) :
    walk setting deeper (.leaf kind ⟨text, index⟩) =
      orRefuse Option.none ⟨.mark kind text, .default⟩ := by
  simp only [List.mem_cons, List.not_mem_nil, or_false] at h
  obtain rfl | rfl | rfl | rfl := h <;> rfl

theorem walk_bool (b : Bool) (index : Nat) :
    walk setting deeper ((bool b).tree chars index) =
      orRefuse ((bool b).refused? index) (Outcome.ofValue (bool b)) := by
  have hread : ∀ b, decide (Text.lower (boolText b) = "true") = b := by decide +kernel
  have hnone : (bool b).refused? index = Option.none := by simp [refused?]
  rw [tree, hnone]
  change ofAttempt (.ok (Outcome.ofValue (bool (decide (Text.lower (boolText b) = "true"))))) = _
  rw [hread]
  rfl

/-- The one magnitude that is out of range has no literal. -/
theorem walk_digits {n : Nat} (h : n ≤ 0x8000000000000000) (index : Nat) :
    walk setting deeper (.leaf .int ⟨toString n, index⟩) =
      orRefuse (if n = 0x8000000000000000 then some index else Option.none)
        (Outcome.ofValue (int (.ofNat n))) := by
  change ofAttempt (Outcome.ofValue <$> integerLiteral ⟨toString n, index⟩) = _
  rw [integerLiteral_toString]
  by_cases hlowest : n = 0x8000000000000000
  · have hbeyond : ¬ inRange (.ofNat n) = true := mt inRange_ofNat.mp hlowest.not_lt
    have htext : toString n = lowest := by
      rw [hlowest]
      decide +kernel
    rw [if_neg hbeyond, if_pos hlowest, htext]
    rfl
  · have hrange : inRange (.ofNat n) = true := inRange_ofNat.mpr (by omega)
    rw [if_pos hrange, if_neg hlowest]
    rfl

theorem negate_ofNat {n : Nat} (h : n < 0x8000000000000000) (site : Site) :
    Arithmetic.negate site (int (.ofNat (n + 1))) = .ok (int (.negSucc n)) := by
  have hchecked : Arithmetic.negateInt (.ofNat (n + 1)) = some (.negSucc n) :=
    Arithmetic.checked_eq_some (inRange_negSucc.mpr h)
  rw [Arithmetic.negate, hchecked]

theorem task_prefixed {v w : Value} {site : Site} (h : Arithmetic.negate site v = .ok w)
    (trees : List Tree) :
    task site .prefixed trees [⟨.mark .minus "-", .default⟩, .ofValue v] =
      .ok (.finish (.ofValue w)) := by
  change (do return Task.finish ⟨.value (← Arithmetic.negate site v), .default⟩) = _
  rw [h]
  rfl

theorem walk_int (n : Int) (h : inRange n = true) (index : Nat) :
    walk setting deeper ((int n).tree chars index) =
      orRefuse ((int n).refused? index) (Outcome.ofValue (int n)) := by
  cases n with
  | ofNat n =>
    have hhigh := inRange_ofNat.mp h
    have hlowest : Int.ofNat n ≠ intMin := nofun
    rw [tree, refused?, if_neg hlowest, walk_digits setting deeper hhigh.le, if_neg hhigh.ne]
  | negSucc n =>
    have hlow := inRange_negSucc.mp h
    have hlowest : Int.negSucc n = intMin ↔ n + 1 = 0x8000000000000000 := by
      unfold intMin
      omega
    have hbelow := walkAll_cons (walk_mark setting deeper .minus "-" index (by decide))
      (walkAll_cons (walk_digits setting deeper hlow (index + 1)) (walkAll_nil setting deeper))
    rw [tree, refused?, if_congr hlowest rfl rfl]
    rw [Option.none_or, Option.or_none] at hbelow
    exact walk_finish (by decide) _ hbelow (by simp [Outcome.name?, Outcome.ofValue, name?])
      (task_prefixed (negate_ofNat hlow _) _)

/-- What the tree between the brackets of an array comes to. -/
inductive Inside : List Value → Outcome → Prop
  | one (item : Value) (name : item.name? = Option.none) : Inside [item] (.ofValue item)
  | several (items : List Value) : Inside items ⟨.values items, .default⟩

variable {inside : Outcome}

theorem Inside.name?_eq (h : Inside items inside) : inside.name? = Option.none := by
  cases h with
  | one item name => exact name
  | several => rfl

theorem Inside.task_array (h : Inside items inside) (site : Site) (trees : List Tree) :
    task site .array trees
        [⟨.mark .lsqb "[", .default⟩, inside, ⟨.mark .rsqb "]", .default⟩] =
      .ok (.finish (.ofValue (array items))) := by
  cases h <;> rfl

theorem task_arguments (hitems : areReadable (item :: items) = true) (site : Site)
    (trees : List Tree) :
    task site .arguments trees (.ofValue item :: moreOutcomes items) =
      .ok (.finish ⟨.values (item :: items), .default⟩) := by
  obtain ⟨hitem, hitems⟩ := Bool.and_eq_true_iff.mp hitems
  have hformat : Outcome.formatOf (.ofValue item :: moreOutcomes items) = .default :=
    formatOf_of_default (List.forall_mem_cons.mpr
      ⟨rfl, fun outcome hmem => (plain_moreOutcomes items hitems outcome hmem).2⟩)
  change (do return Task.finish ⟨.values (← Combination.operands site
    ((Outcome.ofValue item :: moreOutcomes items).map Outcome.meaning)),
      Outcome.formatOf (.ofValue item :: moreOutcomes items)⟩) = _
  rw [operands_moreOutcomes, hformat]
  rfl

theorem walk_array {place? : Option Nat} {tree : Tree} (h : Inside items inside)
    (hinside : walk setting deeper tree = orRefuse place? inside) (start stop : Nat) :
    walk setting deeper (.collapse chars .array
      [.leaf .lsqb ⟨"[", start⟩, tree, .leaf .rsqb ⟨"]", stop⟩]) =
      orRefuse place? (.ofValue (array items)) := by
  have hbelow := walkAll_cons (walk_mark setting deeper .lsqb "[" start (by decide))
    (walkAll_cons hinside (walkAll_cons (walk_mark setting deeper .rsqb "]" stop (by decide))
      (walkAll_nil setting deeper)))
  have hnames : ∀ outcome ∈ [⟨.mark .lsqb "[", .default⟩, inside, ⟨.mark .rsqb "]", .default⟩],
      outcome.name? = Option.none :=
    List.forall_mem_cons.mpr ⟨rfl, List.forall_mem_cons.mpr ⟨h.name?_eq,
      List.forall_mem_singleton.mpr rfl⟩⟩
  rw [Option.none_or, Option.or_none, Option.or_none] at hbelow
  exact walk_finish (by decide) _ hbelow hnames (h.task_array _ _)

theorem walk_arguments {place? : Option Nat} {tree : Tree} (index : Nat)
    (hitems : areReadable (item :: items) = true)
    (hfirst : walk setting deeper tree = orRefuse place? (.ofValue item))
    (hmore : walkAll setting deeper false (moreTrees chars index items) =
      orRefuse (moreRefused? index items) (moreOutcomes items)) :
    ∃ inside, Inside (item :: items) inside ∧
      walk setting deeper (.collapse chars .arguments (tree :: moreTrees chars index items)) =
        orRefuse (place?.or (moreRefused? index items)) inside := by
  obtain ⟨hitem, hrest⟩ := Bool.and_eq_true_iff.mp hitems
  cases items with
  | nil =>
    refine ⟨_, .one item (name?_of_isReadable hitem), ?_⟩
    rw [moreTrees, moreRefused?, Option.or_none]
    exact hfirst
  | cons next items =>
    have hnames : ∀ outcome ∈ Outcome.ofValue item :: moreOutcomes (next :: items),
        outcome.name? = Option.none :=
      List.forall_mem_cons.mpr ⟨name?_of_isReadable hitem,
        fun outcome hmem => (plain_moreOutcomes _ hrest outcome hmem).1⟩
    exact ⟨_, .several (item :: next :: items), walk_finish (by decide) _
      (walkAll_cons hfirst hmore) hnames (task_arguments hitems _ _)⟩

mutual

theorem walk_tree : (value : Value) → value.isReadable = true → (index : Nat) →
    walk setting deeper (value.tree chars index) =
      orRefuse (value.refused? index) (Outcome.ofValue value)
  | bool b, _, index => walk_bool setting deeper b index
  | int n, h, index => walk_int setting deeper n h index
  | array [], _, index => by
    have hbelow := walkAll_cons (walk_mark setting deeper .lsqb "[" index (by decide))
      (walkAll_cons (walk_mark setting deeper .rsqb "]" (index + 1) (by decide))
        (walkAll_nil setting deeper))
    rw [tree, refused?]
    exact walk_finish (by decide) _ hbelow (by simp [Outcome.name?]) rfl
  | array (item :: items), h, index => by
    obtain ⟨hitem, hitems⟩ := Bool.and_eq_true_iff.mp h
    -- A single item has no node of its own between the brackets, so `inside` is not known here.
    have hfirst := walk_tree item hitem (index + 1)
    have hmore := walk_moreTrees items hitems (index + 1 + item.text.length)
    obtain ⟨inside, hitems, hinside⟩ := walk_arguments setting deeper _ h hfirst hmore
    rw [tree, refused?]
    exact walk_array setting deeper hitems hinside index _

theorem walk_moreTrees : (items : List Value) → areReadable items = true → (index : Nat) →
    walkAll setting deeper false (moreTrees chars index items) =
      orRefuse (moreRefused? index items) (moreOutcomes items)
  | [], _, _ => rfl
  | item :: items, h, index => by
    obtain ⟨hitem, hitems⟩ := Bool.and_eq_true_iff.mp h
    have hothers := walkAll_cons (walk_tree item hitem (index + 2))
      (walk_moreTrees items hitems (index + 2 + item.text.length))
    have hall := walkAll_cons (walk_mark setting deeper .comma "," index (by decide)) hothers
    rw [moreTrees, moreRefused?]
    rw [Option.none_or] at hall
    exact hall

end

end Value

/--
What is written for a value comes to the value and changes nothing, unless the lowest integer is in
it. Then it comes to an overflow at the digits.
-/
theorem evaluate_text (h : value.isReadable = true) :
    (∀ site, DecoratorTable.builtin.call site "default" value = .ok value.text) ∧
    ∀ (setting : Setting) (memory : Memory),
      (Value.int intMin ∉ value.leaves →
        evaluate setting value.text memory =
          ((fun text => ⟨[⟨text, value, .default⟩], text, value⟩) <$>
            setting.decorators.call ⟨value.text, 0⟩ "default" value, memory) ∧
        (setting.decorators.find? "default" = DecoratorTable.builtin.find? "default" →
          evaluate setting value.text memory =
            (.ok ⟨[⟨value.text, value, .default⟩], value.text, value⟩, memory))) ∧
      (Value.int intMin ∈ value.leaves → ∃ place, evaluate setting value.text memory =
        (.error (.located ⟨Value.lowest, place⟩ .overflow), memory)) := by
  have hname := Value.name?_of_isReadable h
  have hwritten : Builtin.writeDefault value = value.text := by
    cases value with
    | name => cases h
    | _ => rfl
  refine ⟨fun site => hwritten ▸ DecoratorTable.builtin_call_default site value,
    fun setting memory => ?_⟩
  obtain ⟨script, hparse⟩ := Value.parse_text h
  have hwalk : walk setting (deeperFor setting memory.depth)
      (value.tree value.text.toList.toArray 0) memory =
        orRefuse (value.refused? 0) (Outcome.ofValue value) memory :=
    congrFun (Value.walk_tree setting (deeperFor setting memory.depth) value h 0) memory
  have hrefused := Value.isSome_refused? value h 0
  cases hplace : value.refused? 0 with
  | none =>
    rw [hplace] at hwalk hrefused
    have hevaluate := evaluate_of_value hparse (Value.isLeaf_newline_tree value 0) hname hwalk
    refine ⟨fun _ => ⟨hevaluate, fun hdefault => ?_⟩, fun hmem => ?_⟩
    · rw [hevaluate, call_default hdefault, hwritten]
      rfl
    · cases hrefused.mpr hmem
  | some place =>
    rw [hplace] at hwalk hrefused
    exact ⟨fun hmem => absurd (hrefused.mp rfl) hmem,
      fun _ => ⟨place, evaluate_of_failure hparse hwalk⟩⟩

theorem evaluate_text_nested :
    let value : Value := .array [.int (-5), .array [.bool true, .int 0], .array []]
    value.isReadable = true ∧ value.text = "[-5, [true, 0], []]" ∧
      evaluate ⟨50, .builtin, .builtin, none, .still⟩ value.text .empty =
        (.ok ⟨[⟨value.text, value, .default⟩], value.text, value⟩, .empty) := by
  intro value
  have hreadable : value.isReadable = true := by decide +kernel
  have habsent : Value.int intMin ∉ value.leaves := by
    simp [value, Value.leaves, Value.itemLeaves, intMin]
  obtain ⟨-, hevaluate⟩ := evaluate_text hreadable
  exact ⟨hreadable, by decide +kernel, ((hevaluate _ _).1 habsent).2 rfl⟩

/-- No value is said of the lowest integer. -/
theorem evaluate_lowest :
    (Value.int intMin).isReadable = true ∧
    DecoratorTable.builtin.call ⟨"n", 0⟩ "default" (.int intMin) = .ok "-9223372036854775808" ∧
    (Attempt.failure? (evaluate ⟨50, .builtin, .builtin, none, .still⟩ "-9223372036854775808"
      .empty).1).map Failure.message = some "arithmetic overflow at 92233720 (col 1)" := by
  have htext : Builtin.writeDefault (.int intMin) = "-9223372036854775808" := by decide +kernel
  exact ⟨by decide, htext ▸ DecoratorTable.builtin_call_default _ _, by decide +kernel⟩

end Calculator
