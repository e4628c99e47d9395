import Calculator.Decorator.Builtins
import Calculator.Proofs.Demand.Value
import Calculator.Proofs.Function.Builtin
import Calculator.Proofs.Value.Reading

/-!
# Functions of arrays and objects

They agree with indexing. `element` gives what an index reads and `remove` takes just that out.
Every one of the `keys` reads the one of the `values` that has its place.
-/

namespace Calculator

open Evaluation

namespace Value

/-- An array or object without what stands at a place. -/
def without : Value → Nat → Value
  | array items, place => array (items.eraseIdx place)
  | object entries, place => object (entries.eraseIdx place)
  | value, _ => value

/-- If it is an object, each key equals itself and no other key. -/
def HasKeys (container : Value) : Prop :=
  ∀ entries, container = object entries →
    Entries.Distinct entries ∧ ∀ entry ∈ entries, entry.1.equal entry.1 = true

variable {container index : Value} {place : Nat}

theorem admits_of_compound (h : container.isCompound = true) (expected : Expected) :
    expected.admits container = true := by
  rw [Expected.admits, h, Bool.true_or]

end Value

namespace Builtin

open Value

variable {container index : Value} {place : Nat} (site : Site)

/-! ## Element and remove -/

/-- A call with an array or object and an index. -/
def indexCall (name : String) (container index : Value) : Call :=
  ⟨site, ⟨name, [arrayInput, .anything "index"]⟩,
    ⟨[("input", [container]), ("index", [index])], [container, index]⟩⟩

theorem element_eq_lookup (name : String) (hcompound : container.isCompound = true) :
    element (indexCall site name container index) = lookup site container index := by
  cases container with
  | array | object => rfl
  | _ => cases hcompound

theorem remove_array (name : String) (items : List Value) :
    remove (indexCall site name (array items) index) =
      (fun place => array (items.eraseIdx place)) <$> placeOf site items.length index :=
  bind_pure_comp (fun place => array (items.eraseIdx place)) (placeOf site items.length index)

theorem remove_object (name : String) (entries : Entries) :
    remove (indexCall site name (object entries) index) =
      (fun _ => object (entries.erase index)) <$> entryAt site entries index :=
  bind_pure_comp (fun _ => object (entries.erase index)) (entryAt site entries index)

/-- What an index reads can be removed, and nothing else can. -/
theorem remove_eq (name : String) (hcompound : container.isCompound = true) :
    (∀ place, Reads container index place →
      remove (indexCall site name container index) = .ok (container.without place)) ∧
    ((∀ place, ¬Reads container index place) →
      remove (indexCall site name container index) =
        Attempt.fail site (container.refusal index)) := by
  cases container with
  | array items =>
    rw [remove_array]
    constructor
    · intro place hreads
      rw [placeOf_of_reads site hreads]
      rfl
    · intro hnone
      rw [placeOf_of_not_reads site hnone]
      rfl
  | object entries =>
    rw [remove_object]
    constructor
    · rintro place (hfirst | hfirst)
      rw [entryAt_of_first site hfirst, hfirst.erase]
      rfl
    · intro hnone
      rw [entryAt_of_not_reads site hnone]
      rfl
  | _ => cases hcompound

/-! ## Length, keys and values -/

theorem reads_key (hcompound : container.isCompound = true) (hkeys : container.HasKeys)
    (hplace : place < container.entries.length) :
    Reads container container.entries[place].1 place := by
  cases container with
  | array items =>
    have hlt : place < items.length := by
      simpa [Value.entries, Value.items, Entries.ofItems] using hplace
    have hkey : ((array items).entries[place]).1 = int place := by
      simp [Value.entries, Value.items, Entries.ofItems]
    rw [hkey]
    exact .item hlt (.inl rfl)
  | object entries =>
    obtain ⟨hdistinct, hself⟩ := hkeys entries rfl
    refine .entry ⟨hplace, hself _ (List.getElem_mem hplace), fun earlier hearlier => ?_⟩
    exact List.pairwise_iff_getElem.mp hdistinct _ _ _ hplace hearlier
  | _ => cases hcompound

theorem length_entries (container : Value) : container.entries.length = container.items.length := by
  cases container <;> simp [Value.entries, Value.items, Entries.ofItems]

/-- The entry of a key is the item in its place. -/
theorem lookup_key (hcompound : container.isCompound = true) (hkeys : container.HasKeys)
    (hplace : place < container.entries.length) (hitem : place < container.items.length) :
    lookup site container container.entries[place].1 = .ok container.items[place] := by
  obtain ⟨value, hvalue, hlookup⟩ := lookup_of_reads site (reads_key hcompound hkeys hplace)
  rw [hlookup, ← (List.getElem?_eq_some_iff.mp hvalue).2]

/-! ## Calls -/

variable {setting : Setting} (deeper : Deeper) (memory : Memory)

theorem single_arrayInput : arrayInput.IsSingle := ⟨rfl, rfl⟩

theorem single_objectInput : objectInput.IsSingle := ⟨rfl, rfl⟩

theorem single_anything (name : String) : (Parameter.anything name).IsSingle := ⟨rfl, rfl⟩

/-- A function of an array or object and an index. -/
theorem callName_index {name description : String} {f : Call → Attempt Value}
    (h : setting.HasBuiltin name)
    (hfunction : FunctionTable.builtin.find? name =
      some (collection name [arrayInput, .anything "index"] description f))
    (hcompound : container.isCompound = true) (index : Value) :
    callName setting deeper site name [container, index] memory =
      (f (indexCall site name container index), memory) :=
  callName_builtin h hfunction rfl
    (Signature.bind_two site name single_arrayInput (single_anything _) (by decide)
      (admits_of_compound hcompound _) (Bool.or_true _)) deeper memory

/-- A function of an array or object. -/
theorem callName_container {name description : String} {parameter : Parameter}
    {f : Call → Attempt Value} (h : setting.HasBuiltin name) (hparameter : parameter.IsSingle)
    (hfunction : FunctionTable.builtin.find? name =
      some (collection name [parameter] description f))
    (hcompound : container.isCompound = true) :
    callName setting deeper site name [container] memory =
      (f ⟨site, ⟨name, [parameter]⟩, ⟨[(parameter.name, [container])], [container]⟩⟩, memory) :=
  callName_builtin h hfunction rfl
    (Signature.bind_one site name hparameter (admits_of_compound hcompound _)) deeper memory

/--
The builtin functions of arrays and objects agree with indexing. Each index reads one place or is
refused. `element` reads the same, and `remove` leaves out what is read. There are as many `keys`
and `values` as `len` says, and each key reads the value in its place.
-/
theorem collections_agree
    (hbuiltin : ∀ name ∈ ["element", "remove", "len", "keys", "values"], setting.HasBuiltin name)
    (hcompound : container.isCompound = true) (hkeys : container.HasKeys) :
    let call := callName setting deeper site
    (∀ index,
      call "element" [container, index] memory = (lookup site container index, memory) ∧
      ((∃ place value, Reads container index place ∧
          container.items[place]? = some value ∧ lookup site container index = .ok value ∧
          call "remove" [container, index] memory = (.ok (container.without place), memory)) ∨
        ∃ failure, lookup site container index = .error failure ∧
          call "remove" [container, index] memory = (.error failure, memory))) ∧
    ∃ (keys values : List Value) (hlength : keys.length = values.length),
      call "len" [container] memory = (.ok (.int keys.length), memory) ∧
      call "keys" [container] memory = (.ok (.array keys), memory) ∧
      call "values" [container] memory = (.ok (.array values), memory) ∧
      ∀ (place : Nat) (hplace : place < keys.length),
        lookup site container keys[place] = .ok values[place] := by
  intro call
  have helement (index : Value) : call "element" [container, index] memory = _ :=
    callName_index site deeper memory (hbuiltin "element" (by decide)) rfl hcompound index
  have hremove (index : Value) : call "remove" [container, index] memory = _ :=
    callName_index site deeper memory (hbuiltin "remove" (by decide)) rfl hcompound index
  have hlen : call "len" [container] memory = _ :=
    callName_container site deeper memory (hbuiltin "len" (by decide)) single_arrayInput rfl
      hcompound
  have hkeysCall : call "keys" [container] memory = _ :=
    callName_container site deeper memory (hbuiltin "keys" (by decide)) single_objectInput rfl
      hcompound
  have hvalues : call "values" [container] memory = _ :=
    callName_container site deeper memory (hbuiltin "values" (by decide)) single_objectInput rfl
      hcompound
  constructor
  case left =>
    intro index
    rw [helement, element_eq_lookup site _ hcompound, hremove]
    refine ⟨rfl, ?_⟩
    by_cases hreads : ∃ place, Reads container index place
    · obtain ⟨place, hreads⟩ := hreads
      obtain ⟨value, hvalue, hlookup⟩ := lookup_of_reads site hreads
      refine .inl ⟨place, value, hreads, hvalue, hlookup, ?_⟩
      rw [(remove_eq site _ hcompound).1 place hreads]
    · have hnone := not_exists.mp hreads
      refine .inr ⟨_, lookup_of_not_reads site hcompound hnone, ?_⟩
      rw [(remove_eq site _ hcompound).2 hnone]
      rfl
  case right =>
    have hlength := length_entries container
    refine ⟨container.entries.map Prod.fst, container.items, by rw [List.length_map, hlength], ?_,
      hkeysCall, hvalues, fun place hplace => ?_⟩
    · rw [List.length_map, hlength]
      exact hlen
    · rw [List.getElem_map]
      exact lookup_key site hcompound hkeys (by simpa using hplace) _

/-- The truth reads what stands under the number, and takes nothing else out. -/
theorem collections_agree_truth :
    let setting : Setting := ⟨50, .builtin, .builtin, none, .still⟩
    let container := object [(.string "k", .none), (.int 3, .none), (.bool false, .int 7)]
    (∀ name ∈ ["element", "remove", "len", "keys", "values"], setting.HasBuiltin name) ∧
    container.isCompound = true ∧ container.HasKeys ∧
    callName setting (fun _ => pure .none) ⟨"q", 0⟩ "remove" [container, .bool true] .empty =
      (.ok (.object [(.string "k", .none), (.bool false, .int 7)]), .empty) := by
  intro setting container
  have hbuiltin : ∀ name ∈ ["element", "remove", "len", "keys", "values"],
      setting.HasBuiltin name := fun _ _ => ⟨rfl, nofun⟩
  have hkeys : container.HasKeys := by
    intro entries hentries
    cases Value.object.inj hentries
    exact ⟨by decide +kernel, by decide +kernel⟩
  refine ⟨hbuiltin, rfl, hkeys, ?_⟩
  obtain ⟨hindex, -⟩ := collections_agree ⟨"q", 0⟩ (fun _ => pure .none) .empty hbuiltin rfl hkeys
  have hfirst : Reads container (.bool true) 1 :=
    .entry (Entries.first_succ.mpr ⟨by decide +kernel, Entries.first_zero.mpr (by decide +kernel)⟩)
  rcases (hindex (.bool true)).2 with ⟨place, value, hreads, -, -, hremove⟩ | ⟨failure, hlookup, -⟩
  · cases hreads.unique hfirst
    exact hremove
  · obtain ⟨value, -, hvalue⟩ := lookup_of_reads ⟨"q", 0⟩ hfirst
    cases hvalue.symm.trans hlookup

end Builtin

end Calculator
