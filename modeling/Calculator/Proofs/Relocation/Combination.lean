import Calculator.Proofs.Demand.Combination
import Calculator.Proofs.Relocation.Operator

/-!
# Nodes at other places

What is left to do at a node depends on its place only in where a failure is, if the texts that are
looked at stay as they are: those of tokens, of names and of function bodies.
-/

namespace Calculator

open Grammar Attempt

variable {move : Site → Site} {site : Site}

namespace Combination

@[simp]
theorem misshapen_relocate {α : Type} :
    (misshapen (site.relocate move) : Attempt α) = (misshapen site).relocate move := rfl

@[simp]
theorem foldOperators_relocate (left : Value) (meanings : List Meaning) :
    foldOperators (site.relocate move) left meanings =
      (foldOperators site left meanings).relocate move := by
  fun_induction foldOperators site left meanings with
  | case1 => rfl
  | case2 left kind text right rest operator hoperator ih => simp [foldOperators, hoperator, ih]
  | case3 left kind text right rest hoperator => simp [foldOperators, hoperator]
  | case4 => simp [foldOperators]

@[simp]
theorem foldProduct_relocate (left : Value) (meanings : List Meaning) :
    foldProduct (site.relocate move) left meanings =
      (foldProduct site left meanings).relocate move := by
  fun_induction foldProduct site left meanings with
  | case1 => rfl
  | case2 left right rest ih => simp [foldProduct, ih]
  | case3 => simp [foldProduct]

@[simp]
theorem foldComparisons_relocate (left : Value) (meanings : List Meaning) :
    foldComparisons (site.relocate move) left meanings =
      (foldComparisons site left meanings).relocate move := by
  fun_induction foldComparisons site left meanings with
  | case1 => rfl
  | case2 left kind text right rest comparator hcomparator ih =>
    simp [foldComparisons, hcomparator, ih]
  | case3 left kind text right rest hcomparator => simp [foldComparisons, hcomparator]
  | case4 => simp [foldComparisons]

@[simp]
theorem operands_relocate (meanings : List Meaning) :
    operands (site.relocate move) meanings = (operands site meanings).relocate move := by
  fun_induction operands site meanings with
  | case1 => rfl
  | case2 v kind text rest ih => simp [operands, ih]
  | case3 => simp [operands]

@[simp]
theorem signed_relocate (meanings : List Meaning) :
    signed (site.relocate move) meanings = (signed site meanings).relocate move := by
  fun_induction signed site meanings with
  | case1 => rfl
  | case2 text rest ih => simp [signed, ih]
  | case3 text rest ih => simp [signed, ih]
  | case4 => simp [signed]

@[simp]
theorem factorials_relocate (value : Value) (meanings : List Meaning) :
    factorials (site.relocate move) value meanings =
      (factorials site value meanings).relocate move := by
  fun_induction factorials site value meanings with
  | case1 => rfl
  | case2 value text rest ih => simp [factorials, ih]
  | case3 => simp [factorials]

@[simp]
theorem indexes_relocate (value : Value) (meanings : List Meaning) :
    indexes (site.relocate move) value meanings = (indexes site value meanings).relocate move := by
  fun_induction indexes site value meanings with
  | case1 => rfl
  | case2 value _ index _ rest ih => simp [indexes, ih]
  | case3 => simp [indexes]

@[simp]
theorem items_relocate (meaning : Meaning) :
    items (site.relocate move) meaning = (items site meaning).relocate move := by
  cases meaning <;> rfl

@[simp]
theorem insertEntries_relocate (entries : Entries) (meanings : List Meaning) :
    insertEntries (site.relocate move) entries meanings =
      (insertEntries site entries meanings).relocate move := by
  fun_induction insertEntries site entries meanings with
  | case1 => rfl
  | case2 entries text rest ih => simp [insertEntries, ih]
  | case3 entries key value rest ih => simp [insertEntries, ih]
  | case4 => simp [insertEntries]

@[simp]
theorem value_relocate (rule : Rule) (meanings : List Meaning) :
    value (site.relocate move) rule meanings = (value site rule meanings).relocate move := by
  unfold value
  split <;> simp

end Combination

namespace Evaluation

/-! ## Texts that stay -/

/-- The move leaves the text of the piece as it is. -/
def Keeps (move : Site → Site) (site : Site) : Prop := (site.relocate move).text = site.text

/-- The name that an assignment goes to, as a tree. -/
def targetHead : List Tree → Option Tree
  | .node .indexedTarget _ parts :: _ => parts.head?
  | children => children.head?

/-- The trees whose text is looked at where they are parts of a node. -/
def textsRead (rule : Rule) (children : List Tree) : List Tree :=
  match rule with
  | .call => children.head?.toList
  | .assignment => (targetHead children).toList
  | .definition => children.head?.toList ++ children.getLast?.toList
  | .decorator => children
  | _ => []

/-- The move leaves all texts in the tree that are looked at as they are. -/
def KeepsTexts (move : Site → Site) (tree : Tree) : Prop :=
  ∀ inner ∈ tree.subtrees,
    match inner with
    | .leaf _ site => Keeps move site
    | .node rule _ children => ∀ child ∈ textsRead rule children, Keeps move child.site

section

variable {kind : Terminal} {rule : Rule} {children : List Tree}

theorem KeepsTexts.leaf (h : KeepsTexts move (.leaf kind site)) : Keeps move site :=
  h (.leaf kind site) List.mem_cons_self

theorem KeepsTexts.node (h : KeepsTexts move (.node rule site children)) :
    ∀ child ∈ textsRead rule children, Keeps move child.site :=
  h (.node rule site children) List.mem_cons_self

theorem KeepsTexts.below (h : KeepsTexts move (.node rule site children)) :
    ∀ child ∈ children, KeepsTexts move child := fun child hchild inner hinner =>
  h inner (List.mem_cons_of_mem _ (Tree.mem_subtreesOf.mpr ⟨child, hchild, hinner⟩))

/-- A move that leaves every text as it is. -/
theorem KeepsTexts.of_forall (h : ∀ site, Keeps move site) (tree : Tree) :
    KeepsTexts move tree := by
  intro inner _
  cases inner with
  | leaf kind site => exact h site
  | node rule site children => exact fun child _ => h child.site

end

/-! ## Literals -/

theorem integerLiteral_relocate (h : Keeps move site) :
    integerLiteral (site.relocate move) = (integerLiteral site).relocate move := by
  unfold integerLiteral
  rw [h]
  split <;> simp

theorem floatLiteral_relocate (h : Keeps move site) :
    floatLiteral (site.relocate move) = (floatLiteral site).relocate move := by
  unfold floatLiteral
  rw [h]
  dsimp only
  split <;> simp

theorem radixLiteral_relocate (h : Keeps move site) (base : Nat) :
    radixLiteral base (site.relocate move) = (radixLiteral base site).relocate move := by
  unfold radixLiteral
  rw [h]
  dsimp only
  rw [relocate_ite, relocate_ite, relocate_fail, relocate_ok, relocate_ok]

theorem literal_relocate (h : Keeps move site) (kind : Terminal) :
    literal kind (site.relocate move) = (literal kind site).relocate move := by
  have htext : (site.relocate move).text = site.text := h
  unfold literal
  split <;> simp [integerLiteral_relocate h, floatLiteral_relocate h, radixLiteral_relocate h,
    stringLiteral, htext]

/-! ## What is left to do -/

@[simp]
theorem argumentsOf_relocate (meanings : List Meaning) :
    argumentsOf (site.relocate move) meanings = (argumentsOf site meanings).relocate move := by
  unfold argumentsOf
  split <;> simp

theorem input_relocate {tree : Tree} (h : Keeps move tree.site) :
    (tree.relocate move).input = tree.input := by
  rw [Tree.input, Tree.site_relocate, h, Tree.input]

theorem head?_relocateAll (children : List Tree) :
    (Tree.relocateAll move children).head? = children.head?.map (Tree.relocate move) := by
  rw [Tree.relocateAll_eq_map, List.head?_map]

theorem getLast?_relocateAll (children : List Tree) :
    (Tree.relocateAll move children).getLast? = children.getLast?.map (Tree.relocate move) := by
  rw [Tree.relocateAll_eq_map, List.getLast?_map]

theorem inputOf_relocate {tree? : Option Tree} (h : ∀ tree ∈ tree?, Keeps move tree.site) :
    (tree?.map (Tree.relocate move)).map Tree.input = tree?.map Tree.input := by
  cases tree? with
  | none => rfl
  | some tree => exact congrArg some (input_relocate (h tree rfl))

theorem firstName_relocate {children : List Tree}
    (h : ∀ head ∈ children.head?, Keeps move head.site) :
    firstName (Tree.relocateAll move children) = firstName children := by
  rw [firstName, head?_relocateAll]
  exact congrArg (Option.getD · "") (inputOf_relocate h)

theorem targetName_eq (children : List Tree) :
    targetName children = ((targetHead children).map Tree.input).getD "" := by
  obtain _ | ⟨⟨kind, place⟩ | ⟨rule, place, parts⟩, trees⟩ := children
  · rfl
  · rfl
  · cases rule <;> rfl

theorem targetHead_relocateAll (children : List Tree) :
    targetHead (Tree.relocateAll move children) =
      (targetHead children).map (Tree.relocate move) := by
  obtain _ | ⟨⟨kind, place⟩ | ⟨rule, place, parts⟩, trees⟩ := children
  · rfl
  · rfl
  · cases rule
    case indexedTarget => exact head?_relocateAll parts
    all_goals rfl

theorem targetName_relocate {children : List Tree}
    (h : ∀ head ∈ targetHead children, Keeps move head.site) :
    targetName (Tree.relocateAll move children) = targetName children := by
  rw [targetName_eq, targetName_eq, targetHead_relocateAll, inputOf_relocate h]

theorem task_relocate {rule : Rule} {children : List Tree}
    (h : ∀ child ∈ textsRead rule children, Keeps move child.site) (outcomes : List Outcome) :
    task (site.relocate move) rule (Tree.relocateAll move children) outcomes =
      (task site rule children outcomes).relocate move := by
  have hfirst : rule = .call →
      firstName (Tree.relocateAll move children) = firstName children := by
    rintro rfl
    exact firstName_relocate fun head hhead => h head (Option.mem_toList.mpr hhead)
  have htarget : rule = .assignment →
      targetName (Tree.relocateAll move children) = targetName children := by
    rintro rfl
    exact targetName_relocate fun head hhead => h head (Option.mem_toList.mpr hhead)
  unfold task
  dsimp only
  split <;> simp_all

theorem refuseNames_relocate (trees : List Tree) (outcomes : List Outcome) :
    refuseNames (Tree.relocateAll move trees) outcomes =
      (refuseNames trees outcomes).relocate move := by
  fun_induction refuseNames trees outcomes with
  | case1 tree trees outcome outcomes name hname => simp [Tree.relocateAll, refuseNames, hname]
  | case2 tree trees outcome outcomes hname ih => simp [Tree.relocateAll, refuseNames, hname, ih]
  | case3 trees outcomes hempty =>
    cases trees with
    | nil => rfl
    | cons tree trees =>
      cases outcomes with
      | nil => rfl
      | cons outcome outcomes => exact absurd rfl (hempty tree trees outcome outcomes rfl)

theorem checkNames_relocate {rule : Rule} {children : List Tree}
    (h : ∀ child ∈ textsRead rule children, Keeps move child.site) (outcomes : List Outcome) :
    checkNames rule (Tree.relocateAll move children) outcomes =
      (checkNames rule children outcomes).relocate move := by
  have hhelp : asksForHelp rule (Tree.relocateAll move children) = asksForHelp rule children := by
    unfold asksForHelp
    by_cases hrule : rule = .call
    · subst hrule
      have hinput := inputOf_relocate fun head hhead => h head (Option.mem_toList.mpr hhead)
      rw [head?_relocateAll]
      cases hhead : children.head? with
      | none => rfl
      | some head =>
        rw [hhead] at hinput
        simpa using congrArg (fun input => input = "help") (Option.some.inj hinput)
    · simp [hrule]
  simp [checkNames, hhelp, refuseNames_relocate]

/-! ## Trees that are not walked -/

theorem bareName_relocate (namesFirst : Bool) {tree : Tree} (h : KeepsTexts move tree) :
    bareName namesFirst (tree.relocate move) = bareName namesFirst tree := by
  obtain ⟨kind, place⟩ | ⟨rule, place, parts⟩ := tree
  · have htext : (place.relocate move).text = place.text := h.leaf
    cases namesFirst <;> cases kind <;> simp [bareName, Tree.relocate, htext]
  · cases namesFirst <;> rfl

theorem decoratorOutcome_relocate {children : List Tree}
    (h : ∀ child ∈ children, Keeps move child.site) :
    decoratorOutcome (site.relocate move) (Tree.relocateAll move children) =
      (decoratorOutcome site children).relocate move := by
  obtain _ | ⟨_, _ | ⟨name, _ | ⟨_, _⟩⟩⟩ := children
  case cons.cons.nil =>
    have hname : (name.relocate move).input = name.input := input_relocate (h name (by simp))
    simp [decoratorOutcome, Tree.relocateAll, hname]
  all_goals simp [decoratorOutcome, Tree.relocateAll]

theorem conditionOf_relocate (outcome : Outcome) :
    conditionOf (site.relocate move) outcome = (conditionOf site outcome).relocate move := by
  unfold conditionOf
  split <;> simp

theorem parametersOf_relocate {trees : List Tree} (h : ∀ tree ∈ trees, KeepsTexts move tree) :
    parametersOf (Tree.relocateAll move trees) = parametersOf trees := by
  induction trees with
  | nil => rfl
  | cons tree trees ih =>
    obtain ⟨hfirst, hothers⟩ := List.forall_mem_cons.mp h
    have ih := ih hothers
    obtain ⟨kind, place⟩ | ⟨rule, place, parts⟩ := tree
    · cases kind
      case rpar => rfl
      case identifier => exact congrArg₂ List.cons hfirst.leaf ih
      all_goals exact ih
    · exact ih

theorem updateItem_relocate (items : List Value) (index value : Value) :
    updateItem (site.relocate move) items index value =
      (updateItem site items index value).relocate move := by
  unfold updateItem
  split <;> simp

theorem updated_relocate (container index value : Value) :
    updated (site.relocate move) container index value =
      (updated site container index value).relocate move := by
  unfold updated
  split <;> simp [updateItem_relocate]

end Evaluation

end Calculator
