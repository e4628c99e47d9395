import Mathlib.Data.List.Induction
import Mathlib.Data.List.Nodup
import Mathlib.Data.List.Pairwise
import Mathlib.Tactic.ByContra
import Calculator.Program.Completion

/-!
# What a listing of decorators shows

A name leads to the last decorator that took it. A listing goes through the decorators that some
name still leads to and shows all names of each. So a decorator that has lost only some of its names
is listed with names that lead elsewhere, and these are listed twice.
-/

namespace Calculator

/-- Without its repetitions, a list has none. -/
theorem nodup_eraseDups {α : Type} [BEq α] [LawfulBEq α] (values : List α) :
    values.eraseDups.Nodup := by
  induction hlength : values.length using Nat.strongRecOn generalizing values with
  | ind count ih =>
    cases values with
    | nil => exact List.nodup_nil
    | cons value values =>
      rw [List.eraseDups_cons, List.nodup_cons]
      refine ⟨fun hmem => ?_, ih _ ?_ _ rfl⟩
      · simpa using List.mem_eraseDups.mp hmem
      · rw [← hlength]
        exact Nat.lt_succ_of_le (List.length_filter_le _ values)

namespace Named

variable {α : Type} {entries : Named α} {name : String} {a : α}

theorem keys_put (entries : Named α) (name : String) (a : α) :
    (entries.put name a).map Prod.fst =
      if name ∈ entries.map Prod.fst then entries.map Prod.fst
      else entries.map Prod.fst ++ [name] := by
  induction entries with
  | nil => rfl
  | cons entry others ih =>
    rw [put]
    by_cases hkey : entry.1 = name
    · rw [if_pos hkey, if_pos (hkey ▸ List.mem_cons_self)]
      exact congrArg (· :: others.map Prod.fst) hkey.symm
    · rw [if_neg hkey, List.map_cons, ih, List.map_cons]
      have hmem : name ∈ entry.1 :: others.map Prod.fst ↔ name ∈ others.map Prod.fst := by
        simp [Ne.symm hkey]
      by_cases h : name ∈ others.map Prod.fst
      · rw [if_pos h, if_pos (hmem.mpr h)]
      · rw [if_neg h, if_neg (mt hmem.mp h), List.cons_append]

theorem nodup_keys_put (h : (entries.map Prod.fst).Nodup) (name : String) (a : α) :
    ((entries.put name a).map Prod.fst).Nodup := by
  rw [keys_put]
  split
  case isTrue => exact h
  case isFalse hnew => exact List.concat_eq_append ▸ h.concat hnew

/-- With a name only once, each entry is what its name leads to. -/
theorem lookup_of_mem (h : (entries.map Prod.fst).Nodup) (hmem : (name, a) ∈ entries) :
    entries.lookup name = some a := by
  obtain ⟨before, after, rfl⟩ := List.append_of_mem hmem
  refine List.lookup_eq_some_iff.mpr ⟨before, after, rfl, fun entry hentry => ?_⟩
  rw [List.map_append, List.nodup_append] at h
  have hne := h.2.2 entry.1 (List.mem_map_of_mem hentry) name (by simp)
  simpa using Ne.symm hne

end Named

namespace DecoratorTable

variable {decorators : List Decorator} {decorator other : Decorator} {table : DecoratorTable}
  {name : String} {place : Nat}

/-! ## The last decorator with a name -/

/-- A decorator that came after the place has the name. -/
def Taken (decorators : List Decorator) (name : String) (place : Nat) : Prop :=
  ∃ later decorator, place < later ∧ decorators[later]? = some decorator ∧ name ∈ decorator.names

/-- The decorator at the place is the last one with the name. -/
def Latest (decorators : List Decorator) (name : String) (place : Nat) : Prop :=
  (∃ decorator, decorators[place]? = some decorator ∧ name ∈ decorator.names) ∧
    ¬Taken decorators name place

/-- Of the names of a decorator, later ones take all or none. -/
def TakenWhole (decorators : List Decorator) : Prop :=
  ∀ place decorator, decorators[place]? = some decorator →
    (∃ name ∈ decorator.names, Taken decorators name place) →
      ∀ name ∈ decorator.names, Taken decorators name place

theorem Latest.unique {other : Nat} (h : Latest decorators name place)
    (hother : Latest decorators name other) : place = other := by
  obtain ⟨⟨holder, hholder, hname⟩, huntaken⟩ := h
  obtain ⟨⟨rival, hrival, hrivalName⟩, hrivalUntaken⟩ := hother
  rcases Nat.lt_trichotomy place other with hless | heq | hmore
  · exact absurd ⟨other, rival, hless, hrival, hrivalName⟩ huntaken
  · exact heq
  · exact absurd ⟨place, holder, hmore, hholder, hname⟩ hrivalUntaken

theorem getElem?_concat_eq_some :
    (decorators ++ [decorator])[place]? = some other ↔
      decorators[place]? = some other ∨ place = decorators.length ∧ decorator = other := by
  rcases Nat.lt_trichotomy place decorators.length with hless | rfl | hmore
  · simp [List.getElem?_append_left hless, Nat.ne_of_lt hless]
  · simp
  · have hfar : (decorators ++ [decorator])[place]? = none :=
      List.getElem?_eq_none (by rw [List.length_append]; exact hmore)
    simp [hfar, List.getElem?_eq_none (Nat.le_of_lt hmore), Nat.ne_of_gt hmore]

/-- One more decorator takes all the names that it has, and no other name. -/
theorem latest_concat :
    Latest (decorators ++ [decorator]) name place ↔
      if name ∈ decorator.names then place = decorators.length
      else Latest decorators name place := by
  have hbound {place : Nat} {other : Decorator} (h : decorators[place]? = some other) :
      place < decorators.length := (List.getElem?_eq_some_iff.mp h).1
  simp only [Latest, Taken, getElem?_concat_eq_some]
  split
  case isTrue hnew =>
    constructor
    · rintro ⟨⟨holder, hholder | ⟨hplace, -⟩, -⟩, huntaken⟩
      · exact absurd ⟨_, decorator, hbound hholder, .inr ⟨rfl, rfl⟩, hnew⟩ huntaken
      · exact hplace
    · rintro rfl
      refine ⟨⟨decorator, .inr ⟨rfl, rfl⟩, hnew⟩, ?_⟩
      rintro ⟨later, other, hlt, hother | ⟨rfl, -⟩, -⟩
      · exact absurd (hbound hother) (Nat.not_lt_of_lt hlt)
      · exact absurd hlt (Nat.lt_irrefl _)
  case isFalse hold =>
    constructor
    · rintro ⟨⟨holder, hholder | ⟨-, rfl⟩, hname⟩, huntaken⟩
      · refine ⟨⟨holder, hholder, hname⟩, fun htaken => huntaken ?_⟩
        obtain ⟨later, other, hlt, hother, hotherName⟩ := htaken
        exact ⟨later, other, hlt, .inl hother, hotherName⟩
      · exact absurd hname hold
    · rintro ⟨⟨holder, hholder, hname⟩, huntaken⟩
      refine ⟨⟨holder, .inl hholder, hname⟩, ?_⟩
      rintro ⟨later, other, hlt, hother | ⟨-, rfl⟩, hotherName⟩
      · exact huntaken ⟨later, other, hlt, hother, hotherName⟩
      · exact hold hotherName

theorem exists_latest (hholder : decorators[place]? = some decorator)
    (hname : name ∈ decorator.names) : ∃ later, Latest decorators name later ∧ place ≤ later := by
  induction decorators using List.reverseRecOn with
  | nil => cases hholder
  | append_singleton decorators last ih =>
    by_cases hlast : name ∈ last.names
    · have hplace := (List.getElem?_eq_some_iff.mp hholder).1
      refine ⟨decorators.length, latest_concat.mpr (by rw [if_pos hlast]), ?_⟩
      simpa [Nat.lt_succ_iff] using hplace
    · rcases getElem?_concat_eq_some.mp hholder with hbefore | ⟨-, rfl⟩
      · obtain ⟨later, hlatest, hle⟩ := ih hbefore
        exact ⟨later, latest_concat.mpr (by rwa [if_neg hlast]), hle⟩
      · exact absurd hname hlast

/-! ## Names and what they lead to -/

theorem assign_eq_put (place : Nat) (places : List (String × Nat)) (name : String) :
    assign place places name = Named.put places name place := by
  induction places with
  | nil => rfl
  | cons entry entries ih => rw [assign, Named.put, ih]

theorem lookup_assignAll (place : Nat) (names : List String) (places : List (String × Nat))
    (name : String) :
    (names.foldl (assign place) places).lookup name =
      if name ∈ names then some place else places.lookup name := by
  induction names generalizing places with
  | nil => rfl
  | cons other names ih =>
    rw [List.foldl_cons, ih, assign_eq_put]
    by_cases h : name = other
    · subst h
      simp [Named.lookup_put_self]
    · simp [Named.lookup_put_of_ne h, h]

theorem nodup_keys_assignAll (place : Nat) (names : List String) {places : List (String × Nat)}
    (h : (places.map Prod.fst).Nodup) :
    ((names.foldl (assign place) places).map Prod.fst).Nodup := by
  induction names generalizing places with
  | nil => exact h
  | cons name names ih =>
    refine ih ?_
    rw [assign_eq_put]
    exact Named.nodup_keys_put h name place

/-- Each name leads to the last decorator that has it. -/
structure Faithful (table : DecoratorTable) : Prop where
  distinct : (table.places.map Prod.fst).Nodup
  leads : ∀ name place,
    table.places.lookup name = some place ↔ Latest table.decorators name place

theorem faithful_empty : empty.Faithful where
  distinct := List.nodup_nil
  leads name place := by simp [empty, Latest]

namespace Faithful

theorem add (h : table.Faithful) (decorator : Decorator) : (table.add decorator).Faithful where
  distinct := nodup_keys_assignAll _ _ h.distinct
  leads name place := by
    rw [DecoratorTable.add, latest_concat, lookup_assignAll]
    split
    · rw [Option.some_inj, eq_comm]
    · exact h.leads name place

theorem addAll (h : table.Faithful) (decorators : List Decorator) :
    (decorators.foldl DecoratorTable.add table).Faithful := by
  induction decorators generalizing table with
  | nil => exact h
  | cons decorator decorators ih => exact ih (h.add decorator)

theorem ofList (decorators : List Decorator) : (ofList decorators).Faithful :=
  faithful_empty.addAll decorators

theorem find?_of_latest (h : table.Faithful) (hlatest : Latest table.decorators name place) :
    table.find? name = table.decorators[place]? := by
  rw [find?, (h.leads name place).mpr hlatest]
  rfl

theorem find?_eq_some_iff (h : table.Faithful) :
    table.find? name = some decorator ↔
      ∃ place, Latest table.decorators name place ∧ table.decorators[place]? = some decorator := by
  constructor
  · intro hfind
    obtain ⟨place, hplace, hholder⟩ := Option.bind_eq_some_iff.mp hfind
    exact ⟨place, (h.leads name place).mp hplace, hholder⟩
  · rintro ⟨place, hlatest, hholder⟩
    rw [h.find?_of_latest hlatest, hholder]

theorem isSome_find? (h : table.Faithful) (hdecorator : decorator ∈ table.decorators)
    (hname : name ∈ decorator.names) : (table.find? name).isSome := by
  obtain ⟨place, hplace⟩ := List.mem_iff_getElem?.mp hdecorator
  obtain ⟨last, hlatest, -⟩ := exists_latest hplace hname
  have ⟨⟨holder, hholder, _⟩, _⟩ := hlatest
  rw [h.find?_of_latest hlatest, hholder]
  rfl

end Faithful

/-- What has been registered comes after the decorators that are always there. -/
theorem addAll_builtin (registered : List Decorator) :
    registered.foldl add builtin = ofList (Builtin.decorators ++ registered) :=
  List.foldl_append.symm

/-! ## Listings -/

/-- The places of the decorators that are listed. -/
def listed (table : DecoratorTable) : List Nat := (table.places.map (·.2)).eraseDups

theorem sorted_perm (table : DecoratorTable) :
    table.sorted.Perm (table.listed.filterMap (table.decorators[·]?)) :=
  List.mergeSort_perm _ _

/-- No name stands for both the decorator at the one place and the one at the other. -/
def Apart (decorators : List Decorator) (first second : Nat) : Prop :=
  ∀ decorator, decorators[first]? = some decorator → ∀ other, decorators[second]? = some other →
    decorator.names.Disjoint other.names

instance (decorators : List Decorator) : Std.Symm (Apart decorators) where
  symm _ _ happart decorator hdecorator other hother _ hname hotherName :=
    happart other hother decorator hdecorator hotherName hname

/-- The words for decorators that the console offers. -/
def words (table : DecoratorTable) : List (String × String) :=
  table.sorted.flatMap fun decorator =>
    decorator.names.map fun name => ("@" ++ name, decorator.description)

namespace Faithful

theorem mem_listed (h : table.Faithful) :
    place ∈ table.listed ↔ ∃ name, Latest table.decorators name place := by
  rw [listed, List.mem_eraseDups, List.mem_map]
  constructor
  · rintro ⟨⟨name, _⟩, hentry, rfl⟩
    exact ⟨name, (h.leads name _).mp (Named.lookup_of_mem h.distinct hentry)⟩
  · rintro ⟨name, hlatest⟩
    obtain ⟨before, after, hplaces, -⟩ :=
      List.lookup_eq_some_iff.mp ((h.leads name place).mpr hlatest)
    exact ⟨(name, place), by simp [hplaces], rfl⟩

theorem mem_sorted (h : table.Faithful) :
    decorator ∈ table.sorted ↔ ∃ name, table.find? name = some decorator := by
  simp only [table.sorted_perm.mem_iff, List.mem_filterMap, h.mem_listed, h.find?_eq_some_iff]
  constructor
  · rintro ⟨place, ⟨name, hlatest⟩, hholder⟩
    exact ⟨name, place, hlatest, hholder⟩
  · rintro ⟨name, place, hlatest, hholder⟩
    exact ⟨place, ⟨name, hlatest⟩, hholder⟩

/-- What is listed is what would be found, unless a decorator has lost some of its names only. -/
theorem finds_listed_iff (h : table.Faithful) :
    (∀ decorator ∈ table.sorted, ∀ name ∈ decorator.names, table.find? name = some decorator) ↔
      TakenWhole table.decorators := by
  constructor
  case mp =>
    rintro hagrees place decorator hholder ⟨lost, hlost, later, rival, hless, hrival, hrivalName⟩
    by_contra! ⟨kept, hkept, huntaken⟩
    -- It is listed because of the name it has kept, and the one it has lost leads further on.
    have hlisted := h.mem_sorted.mpr
      ⟨kept, h.find?_eq_some_iff.mpr ⟨place, ⟨⟨decorator, hholder, hkept⟩, huntaken⟩, hholder⟩⟩
    obtain ⟨last, hlast, hlaterle⟩ := exists_latest hrival hrivalName
    obtain ⟨found, hfound, hplace⟩ :=
      h.find?_eq_some_iff.mp (hagrees decorator hlisted lost hlost)
    obtain rfl := hfound.unique hlast
    exact huntaken ⟨_, decorator, by omega, hplace, hkept⟩
  case mpr =>
    intro hwhole decorator hlisted name hname
    obtain ⟨kept, hfind⟩ := h.mem_sorted.mp hlisted
    obtain ⟨place, ⟨⟨holder, hholder, hkept⟩, huntaken⟩, hplace⟩ := h.find?_eq_some_iff.mp hfind
    cases hholder.symm.trans hplace
    refine h.find?_eq_some_iff.mpr ⟨place, ⟨⟨decorator, hplace, hname⟩, fun htaken => ?_⟩, hplace⟩
    exact huntaken (hwhole place decorator hplace ⟨name, hname, htaken⟩ kept hkept)

/-- Two listed decorators share a name just where one has lost some of its names only. -/
theorem pairwise_apart_iff (h : table.Faithful) :
    table.listed.Pairwise (Apart table.decorators) ↔ TakenWhole table.decorators := by
  constructor
  case mp =>
    rintro happart place decorator hholder ⟨lost, hlost, later, rival, hless, hrival, hrivalName⟩
    by_contra! ⟨kept, hkept, huntaken⟩
    obtain ⟨last, hlatest, hle⟩ := exists_latest hrival hrivalName
    have ⟨⟨taker, htaker, hname⟩, _⟩ := hlatest
    have hplace := h.mem_listed.mpr ⟨kept, ⟨decorator, hholder, hkept⟩, huntaken⟩
    have hlast := h.mem_listed.mpr ⟨lost, hlatest⟩
    exact happart.forall hplace hlast (by omega) decorator hholder taker htaker hlost hname
  case mpr =>
    -- Of two places with a name in common, the earlier one has lost that name.
    have hlost {first second : Nat} {decorator other : Decorator} {name : String}
        (hwhole : TakenWhole table.decorators) (hfirst : first ∈ table.listed)
        (hdecorator : table.decorators[first]? = some decorator)
        (hother : table.decorators[second]? = some other) (hname : name ∈ decorator.names)
        (hotherName : name ∈ other.names) : second ≤ first := by
      by_contra hle
      have hless := Nat.lt_of_not_le hle
      obtain ⟨kept, ⟨holder, hholder, hkept⟩, huntaken⟩ := h.mem_listed.mp hfirst
      cases hholder.symm.trans hdecorator
      have htaken : Taken table.decorators name first := ⟨second, other, hless, hother, hotherName⟩
      exact huntaken (hwhole first decorator hdecorator ⟨name, hname, htaken⟩ kept hkept)
    intro hwhole
    refine (nodup_eraseDups _).pairwise_of_forall_ne fun first hfirst second hsecond hne => ?_
    intro decorator hdecorator other hother name hname hotherName
    exact hne (Nat.le_antisymm (hlost hwhole hsecond hother hdecorator hotherName hname)
      (hlost hwhole hfirst hdecorator hother hname hotherName))

/-- A name is listed twice just where a decorator has lost some of its names only. -/
theorem nodup_names_iff (h : table.Faithful)
    (hnames : ∀ decorator ∈ table.decorators, decorator.names.Nodup) :
    (table.sorted.flatMap (·.names)).Nodup ↔ TakenWhole table.decorators := by
  rw [(table.sorted_perm.flatMap_right _).nodup_iff, List.nodup_flatMap, List.pairwise_filterMap,
    ← h.pairwise_apart_iff]
  refine and_iff_right fun decorator hdecorator => hnames decorator ?_
  obtain ⟨place, -, hplace⟩ := List.mem_filterMap.mp hdecorator
  exact List.mem_of_getElem? hplace

end Faithful

/-! ## What the user gets to see -/

theorem words_in_candidates (session : Session) :
    session.setting.decorators.words <:+: Completion.candidates session := by
  unfold Completion.candidates words
  exact ⟨_, _, rfl⟩

theorem exists_intercalate {separator block : String} {blocks : List String}
    (h : block ∈ blocks) :
    ∃ before after, String.intercalate separator blocks = before ++ block ++ after := by
  induction blocks with
  | nil => cases h
  | cons first others ih =>
    cases others with
    | nil =>
      cases List.mem_singleton.mp h
      exact ⟨"", "", by simp⟩
    | cons second others =>
      rw [String.intercalate_cons_cons]
      rcases List.mem_cons.mp h with rfl | hlater
      · exact ⟨"", separator ++ String.intercalate separator (second :: others), by
          simp [String.append_assoc]⟩
      · obtain ⟨before, after, hothers⟩ := ih hlater
        exact ⟨first ++ separator ++ before, after, by rw [hothers]; simp [String.append_assoc]⟩

theorem exists_help (setting : Setting) (memory : Memory) :
    ∃ before after, Help.text setting memory =
      before ++ Help.block "Built-in Decorators" (setting.decorators.sorted.map Decorator.help) ++
        after := by
  unfold Help.text
  exact exists_intercalate (by simp)

theorem words_keys (table : DecoratorTable) :
    table.words.map (·.1) = (table.sorted.flatMap (·.names)).map ("@" ++ ·) := by
  simp [words, List.map_flatMap, Function.comp_def]

theorem at_injective : Function.Injective fun name : String => "@" ++ name := by
  intro a b h
  simpa using h

theorem Faithful.mem_words (h : table.Faithful) (hwhole : TakenWhole table.decorators)
    {description : String} : ("@" ++ name, description) ∈ table.words ↔
      (table.find? name).map (·.description) = some description := by
  have hfinds := h.finds_listed_iff.mpr hwhole
  simp only [words, List.mem_flatMap, List.mem_map, Prod.mk.injEq, Option.map_eq_some_iff]
  constructor
  · rintro ⟨decorator, hlisted, other, hname, heq, rfl⟩
    obtain rfl := at_injective heq
    exact ⟨decorator, hfinds decorator hlisted other hname, rfl⟩
  · rintro ⟨decorator, hfind, rfl⟩
    obtain ⟨place, ⟨⟨holder, hholder, hname⟩, -⟩, hplace⟩ := h.find?_eq_some_iff.mp hfind
    cases hholder.symm.trans hplace
    exact ⟨decorator, h.mem_sorted.mpr ⟨name, hfind⟩, name, hname, rfl, rfl⟩

/--
Whatever has been registered: a name leads to the last decorator with it, and the decorators that
some name leads to are listed, each once. The names that are listed lead to the decorators that they
are listed for if later ones have taken all or none of the names of each, and only then. Then help
and the completions of the console show each name once, with the description of what would run.
-/
theorem listing_agrees_iff (registered : List Decorator) :
    let decorators := Builtin.decorators ++ registered
    let table := registered.foldl add builtin
    (∀ name place, Latest decorators name place → table.find? name = decorators[place]?) ∧
    (∃ places : List Nat, places.Nodup ∧
      (∀ place, place ∈ places ↔ ∃ name, Latest decorators name place) ∧
      table.sorted.Perm (places.filterMap (decorators[·]?))) ∧
    ((∀ decorator ∈ table.sorted, ∀ name ∈ decorator.names, table.find? name = some decorator) ↔
      TakenWhole decorators) ∧
    ((∀ decorator ∈ decorators, decorator.names.Nodup) →
      ((table.words.map (·.1)).Nodup ↔ TakenWhole decorators)) ∧
    (TakenWhole decorators → ∀ name description, ("@" ++ name, description) ∈ table.words ↔
      (table.find? name).map (·.description) = some description) ∧
    ∀ session : Session, session.setting.decorators = table →
      table.words <:+: Completion.candidates session ∧
      ∃ before after, session.help =
        before ++ Help.block "Built-in Decorators" (table.sorted.map Decorator.help) ++ after := by
  intro decorators table
  have htable : table = ofList decorators := addAll_builtin registered
  have h : table.Faithful := htable ▸ .ofList decorators
  have hdecorators : table.decorators = decorators := htable ▸ decorators_ofList decorators
  rw [← hdecorators]
  refine ⟨fun name place => h.find?_of_latest, ?_, h.finds_listed_iff, fun hnames => ?_,
    fun hwhole name description => h.mem_words hwhole, ?_⟩
  · exact ⟨table.listed, nodup_eraseDups _, fun place => h.mem_listed, table.sorted_perm⟩
  · rw [words_keys, List.nodup_map_iff at_injective, h.nodup_names_iff hnames]
  · rintro session hsession
    rw [← hsession]
    exact ⟨words_in_candidates session, exists_help session.setting session.memory⟩

/-- It takes one of the two names of a decorator that is always there. -/
def bracketing : Decorator :=
  ⟨["int"], "In angle brackets", .any, true, fun _ value => .ok ("<" ++ value.text ++ ">")⟩

/-- The other name still leads to the decorator that has lost one, and both names are listed. -/
theorem listing_disagrees :
    let table := builtin.add bracketing
    ∃ decorator ∈ table.sorted, "int" ∈ decorator.names ∧
      table.find? "int" = some bracketing ∧ decorator.description ≠ bracketing.description ∧
      ("@int", decorator.description) ∈ table.words ∧
      ("@int", bracketing.description) ∈ table.words := by
  intro table
  have h : table.Faithful := (Faithful.ofList Builtin.decorators).add bracketing
  have hint : table.find? "int" = some bracketing := rfl
  obtain ⟨decorator, hinteger, hname, hother⟩ : ∃ decorator,
      table.find? "integer" = some decorator ∧ "int" ∈ decorator.names ∧
        decorator.description ≠ bracketing.description := ⟨_, rfl, by decide, by decide⟩
  have hlisted := h.mem_sorted.mpr ⟨"integer", hinteger⟩
  have hword {decorator : Decorator} (hlisted : decorator ∈ table.sorted)
      (hname : "int" ∈ decorator.names) : ("@int", decorator.description) ∈ table.words :=
    List.mem_flatMap.mpr ⟨decorator, hlisted, List.mem_map.mpr ⟨"int", hname, rfl⟩⟩
  exact ⟨decorator, hlisted, hname, hint, hother, hword hlisted hname,
    hword (h.mem_sorted.mpr ⟨"int", hint⟩) (by decide)⟩

end DecoratorTable

end Calculator
