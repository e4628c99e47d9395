import Calculator.Decorator.Builtins
import Calculator.Function.Builtins
import Calculator.Proofs.Grammar.Numerals
import Calculator.Proofs.Grammar.OpenNodes
import Calculator.Proofs.Hazard.Evaluation

/-!
# What scripts never fail with

The program never contradicts itself: nodes find their children, and functions their arguments. A
tree has a node for each bracket that is opened and not closed, and no others that say so.
-/

namespace Calculator

open Grammar Evaluation Number

variable {hazard : Hazard} {setting : Setting} {deeper : Deeper} {source : String} {tree : Tree}
  {failure : Failure}

theorem Attempt.Avoids.ne_error {α : Type} {post : α → Prop} {attempt : Attempt α}
    (h : attempt.Avoids hazard post) (hholds : hazard.Holds failure) : attempt ≠ .error failure := by
  rintro rfl
  cases h with
  | failed hfailure => exact hfailure hholds

/-- A tree that a source has is sound if what it leaves open is no hazard. -/
theorem sound_of_parse (h : parse source = .ok tree)
    (hleaf : ∀ kind site, .leaf kind site ∈ tree.subtrees →
      ∀ slip ∈ kind.slip?, ¬hazard.Holds (.located site (.slip slip)))
    (hnode : ∀ rule site children, .node rule site children ∈ tree.subtrees →
      ∀ slip ∈ slip? rule, ¬hazard.Holds (.located site (.slip slip))) :
    ∀ t ∈ tree.subtrees, t.Sound hazard := by
  intro t ht
  cases t with
  | leaf kind site =>
    refine ⟨?_, hleaf kind site ht⟩
    rintro rfl
    exact isSome_readInteger_of_parse h ht
  | node rule site children => exact ⟨shape_of_parse h ht, hnode rule site children ht⟩

/-! ## The program never contradicts itself -/

def Hazard.internal : Hazard where
  Holds failure := ∃ complaint place, failure = .error (.internal complaint) place
  special := by
    rintro _ ⟨_, _, rfl⟩
    rfl

theorem not_internal_of_slip (site : Site) (slip : Slip) :
    ¬Hazard.internal.Holds (.located site (.slip slip)) := by
  rintro ⟨_, _, h⟩
  cases h

theorem sound_internal_of_parse (h : parse source = .ok tree) :
    ∀ t ∈ tree.subtrees, t.Sound .internal :=
  sound_of_parse h (fun _ _ _ _ _ => not_internal_of_slip _ _)
    fun _ _ _ _ _ _ => not_internal_of_slip _ _

/-- A function that asks for nothing else than it has got. -/
theorem Behaviour.Safe.quiet {behaviour : Behaviour} {names : List String}
    (h : behaviour.Safe hazard names) (world : World) {call : Call} (hcall : call.Supplies names) :
    behaviour.Quiet hazard world call := by
  cases behaviour with
  | compute f => exact h call hcall
  | consult f => exact h world call hcall
  | draw f => exact fun drawn => h drawn call hcall
  | help => trivial
  | run => exact hcall.required h
  | runFile => exact hcall.required h

/-- The functions that are always there do nothing hazardous, and so it is with a setting of them. -/
theorem Setting.quiet_of_builtin
    (hfunctions : ∀ function ∈ setting.functions.functions,
      function ∈ FunctionTable.builtin.functions)
    (hdecorators : ∀ decorator ∈ setting.decorators.decorators, decorator.Safe hazard)
    (hhost : setting.host = none) : setting.Quiet hazard where
  functions function hfunction site values bound hbound := by
    have hbuiltin := hfunctions function hfunction
    exact (FunctionTable.builtin_safe function hbuiltin).quiet setting.world
      (Signature.bind_binds (FunctionTable.builtin_orderly function hbuiltin) hbound)
  decorators := hdecorators
  host := by simp [hhost]

/--
A node has the children that its rule spells, and finds in them all that it looks for: whatever the
nodes below have come to, as long as they have come to what they are there for, and wherever it is
walked.
-/
structure Grammar.Tree.FindsAll (setting : Setting) (tree : Tree) : Prop where
  shape : ∀ rule site children, tree = .node rule site children →
    Shape rule children ∧ (rule.staysAlone ∨ children.length ≠ 1)
  task : ∀ rule site children outcomes, tree = .node rule site children → isWalked rule →
    slip? rule = none → Plays rule children (outcomes.map (·.meaning)) →
      (task site rule children outcomes).Avoids .internal (·.role = rule.role)
  walk : tree.role ≠ .line → ∀ deeper : Deeper, (∀ source, (deeper source).Safe .internal) →
    (walk setting deeper tree).Avoids .internal (·.meaning.role = tree.role)

/--
With the functions that are always there, and without an extension, no script ever fails because the
program contradicts itself. Each node of each tree finds the children and the operators that it looks
for, and each function finds the arguments that it asks for. Decorators may be added, as long as they
do not complain of such a thing themselves; those that are always there never do.
-/
theorem evaluate_not_internal (setting : Setting)
    (hfunctions : ∀ function ∈ setting.functions.functions,
      function ∈ FunctionTable.builtin.functions)
    (hdecorators : ∀ decorator ∈ setting.decorators.decorators, decorator.Safe .internal)
    (hhost : setting.host = none) :
    (∀ source memory complaint place,
      (evaluate setting source memory).1 ≠ .error (.error (.internal complaint) place)) ∧
    (∀ source tree, parse source = .ok tree → ∀ t ∈ tree.subtrees, t.FindsAll setting) ∧
    ∀ function ∈ setting.functions.functions, ∀ site values bound,
      function.signature.bind site values = .ok bound →
        (∀ name ∈ function.signature.needed, ∃ value, bound.required name = .ok value) ∧
          function.behaviour.Quiet .internal setting.world ⟨site, function.signature, bound⟩ := by
  have hquiet : setting.Quiet .internal := Setting.quiet_of_builtin hfunctions hdecorators hhost
  refine ⟨?_, ?_, ?_⟩
  · intro source memory complaint place
    have hsafe : (evaluate setting source).Safe .internal :=
      evaluate_safe hquiet (fun _ _ => sound_internal_of_parse) source
    exact (hsafe memory).ne_error ⟨complaint, place, rfl⟩
  · intro source tree hparse t ht
    refine ⟨?_, ?_, ?_⟩
    · rintro rule site children rfl
      exact shape_of_parse hparse ht
    · rintro rule site children outcomes rfl hwalked hslip hplays
      exact task_avoids hwalked hslip (shape_of_parse hparse ht).1 hplays
    · intro hline deeper hdeeper
      have hinside : ∀ u ∈ t.subtrees, u.Sound .internal := fun u hu =>
        sound_internal_of_parse hparse u (Tree.mem_subtrees_trans hu ht)
      exact walk_avoids ⟨hquiet, hdeeper⟩ t hinside hline
  · intro function hfunction site values bound hbound
    have hbinds := Signature.bind_binds
      (FunctionTable.builtin_orderly function (hfunctions function hfunction)) hbound
    exact ⟨fun name hname => (hbinds name hname).required,
      hquiet.functions function hfunction site values bound hbound⟩

/-- The call lacks an argument, which is an error of the script. -/
theorem evaluate_not_internal_push :
    let setting : Setting := ⟨50, .builtin, .builtin, none, .still⟩
    let source := "-[1][0]! + push([1])"
    (∀ complaint place,
      (evaluate setting source .empty).1 ≠ .error (.error (.internal complaint) place)) ∧
    (∃ tree, parse source = .ok tree ∧ ∀ t ∈ tree.subtrees, t.FindsAll setting) ∧
    ∃ function bound, setting.functions.find? "push" = some function ∧
      function.signature.bind ⟨"push", 0⟩ [.array [], .int 2] = .ok bound ∧
      ∃ value, bound.required "element" = .ok value := by
  intro setting source
  obtain ⟨hnever, hfinds, hbound⟩ := evaluate_not_internal setting (fun _ => id)
    DecoratorTable.builtin_safe rfl
  refine ⟨hnever source .empty, ?_, ?_⟩
  · have hread : (parse source).toOption.isSome := by decide +kernel
    cases hparse : parse source with
    | error failure =>
      rw [hparse] at hread
      cases hread
    | ok tree => exact ⟨tree, rfl, hfinds source tree hparse⟩
  · have hfind : setting.functions.find? "push" = some _ := rfl
    have hmem := List.mem_of_find?_eq_some hfind
    have hrequired := (hbound _ hmem ⟨"push", 0⟩ [.array [], .int 2] _ rfl).1
    exact ⟨_, _, hfind, rfl, hrequired "element" (by decide)⟩

/-! ## Brackets that are left open -/

/-- A single failure that no value can cause. -/
def Hazard.only (failure : Failure) (h : failure.isSpecial) : Hazard where
  Holds other := other = failure
  special := by
    rintro _ rfl
    exact h

theorem Attempt.safe_only_iff {α : Type} {attempt : Attempt α} {h : failure.isSpecial} :
    attempt.Safe (.only failure h) ↔ attempt ≠ .error failure := by
  constructor
  · exact fun hsafe => hsafe.ne_error rfl
  · intro hne
    cases attempt with
    | ok a => exact .ok trivial
    | error other => exact .failed fun heq => hne (congrArg _ heq)

/-- What is said about a bracket that is left open. -/
def Grammar.Bracket.slip : Bracket → Slip
  | .paren => .openParen
  | .square => .openArray
  | .brace => .openObject

theorem Slip.kind_injective {a b : Slip} (h : a.kind = b.kind) : a = b := by
  revert h
  cases a <;> cases b <;> decide

/-- No other cause is of the kind of a slip. -/
theorem Cause.eq_slip_of_kind {cause : Cause} {slip : Slip} (h : cause.kind = slip.kind) :
    cause = .slip slip := by
  cases cause with
  | slip other => rw [Slip.kind_injective h]
  | _ =>
    revert h
    cases slip <;> simp [kind, Slip.kind]

theorem openRule_of_slip {b : Bracket} {rule : Rule} (h : slip? rule = some b.slip) :
    rule = b.openRule := by
  cases b <;> cases rule <;> first | rfl | cases h

theorem leaf_slip_ne (b : Bracket) (kind : Terminal) : kind.slip? ≠ some b.slip := by
  cases b <;> cases kind <;> decide

/-- A tree without such nodes says nothing about the bracket. -/
theorem sound_of_nodeCount_eq_zero {b : Bracket} {site : Site} (h : parse source = .ok tree)
    (hnodes : tree.nodeCount b.openRule = 0) :
    ∀ t ∈ tree.subtrees, t.Sound (.only (.located site (.slip b.slip)) rfl) := by
  apply sound_of_parse h
  · rintro kind place - slip hslip heq
    cases heq
    exact leaf_slip_ne b kind hslip
  · rintro rule place children hmem slip hslip heq
    cases heq
    have hnone := List.countP_eq_zero.mp hnodes _ hmem
    simp [Tree.isNode, openRule_of_slip hslip] at hnone

/-- The ending of a script depends on no other scripts than these. -/
def DependsOn (setting : Setting) (start : Start) (nested : List Start) : Prop :=
  ∀ deeper, Answers deeper nested (fun inner => evaluate setting inner.source inner.memory) →
    script setting deeper start.source start.memory = evaluate setting start.source start.memory

/-- There are always some, all of them one level deeper. -/
theorem exists_dependsOn (setting : Setting) (start : Start) :
    ∃ nested, OneBelow setting start.memory.depth nested ∧ DependsOn setting start nested := by
  obtain ⟨nested, hbelow, hsame⟩ := settled_script setting start.source start.memory
  refine ⟨nested, hbelow, fun deeper hanswers => ?_⟩
  rw [evaluate_eq_script]
  exact hsame deeper hanswers

/--
A tree has as many nodes of a bracket left open as the source has opening brackets more than closing
ones. So a source with too many closing brackets has no tree. Where there are as many of both, a
script only says that one is left open if one of the scripts inside that it depends on does, unless
there are functions or decorators that say such a thing by themselves.
-/
theorem parse_open_brackets (source : String) (b : Bracket) :
    let opened := count b.opening (lex source).tokens
    let closed := count b.closing (lex source).tokens
    (∀ tree, parse source = .ok tree → (tree.nodeCount b.openRule : Int) = opened - closed) ∧
    (opened < closed → ∀ tree, parse source ≠ .ok tree) ∧
    (opened = closed → ∀ setting site,
      setting.Quiet (.only (.located site (.slip b.slip)) rfl) → ∀ memory nested,
        DependsOn setting ⟨source, memory⟩ nested →
          (evaluate setting source memory).1 = .error (.located site (.slip b.slip)) →
            ∃ inner ∈ nested, (evaluate setting inner.source inner.memory).1 =
              .error (.located site (.slip b.slip))) := by
  intro opened closed
  have hcount : ∀ tree, parse source = .ok tree → opened = closed + tree.nodeCount b.openRule :=
    fun tree => count_of_parse b
  refine ⟨?_, ?_, ?_⟩
  · intro tree hparse
    have := hcount tree hparse
    omega
  · intro hsurplus tree hparse
    have := hcount tree hparse
    omega
  · intro hbalanced setting site hquiet memory nested hdepends hfails
    by_contra hnone
    -- The tree has no such node, so the complaint cannot come from the walk itself.
    have hsound : ∀ tree, parse source = .ok tree →
        ∀ t ∈ tree.subtrees, t.Sound (.only (.located site (.slip b.slip)) rfl) := by
      intro tree hparse
      have := hcount tree hparse
      exact sound_of_nodeCount_eq_zero hparse (by omega)
    have hnested : ∀ inner ∈ nested, Attempt.Safe (.only (.located site (.slip b.slip)) rfl)
        (evaluate setting inner.source inner.memory).1 := fun inner hinner =>
      Attempt.safe_only_iff.mpr fun heq => hnone ⟨inner, hinner, heq⟩
    have hsafe := ending_safe hquiet ⟨source, memory⟩ hsound hdepends hnested
    exact Attempt.safe_only_iff.mp hsafe hfails

/-- The bracket in the string is no token, and it is the string that is not closed as a script. -/
theorem parse_open_brackets_run :
    let setting : Setting := ⟨50, .builtin, .builtin, none, .still⟩
    let source := "run(\"(1\")"
    let failure : Failure := .located ⟨"(1", 0⟩ (.slip .openParen)
    (evaluate setting source .empty).1 = .error failure ∧ ∃ inner : Start,
      inner.memory.depth = 1 ∧ (evaluate setting inner.source inner.memory).1 = .error failure := by
  intro setting source failure
  have hrun : (match (evaluate setting source .empty).1 with
      | .ok _ | .error (.fault _) | .error (.error _ none) => false
      | .error (.error cause (some site)) =>
        cause.kind = Slip.openParen.kind && site = ⟨"(1", 0⟩) = true := by
    decide +kernel
  have hfails : (evaluate setting source .empty).1 = .error failure := by
    split at hrun
    case h_4 cause site hresult =>
      simp only [Bool.and_eq_true, decide_eq_true_eq] at hrun
      rw [hresult, Cause.eq_slip_of_kind hrun.1, hrun.2]
      rfl
    all_goals cases hrun
  have hquiet : setting.Quiet (.only failure rfl) :=
    Setting.quiet_of_builtin (fun _ => id) DecoratorTable.builtin_safe rfl
  obtain ⟨nested, hbelow, hdepends⟩ := exists_dependsOn setting ⟨source, .empty⟩
  obtain ⟨inner, hinner, hinside⟩ := (parse_open_brackets source .paren).2.2 (by decide +kernel)
    setting ⟨"(1", 0⟩ hquiet .empty nested hdepends hfails
  exact ⟨hfails, inner, (hbelow inner hinner).1, hinside⟩

end Calculator
