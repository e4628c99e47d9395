import Calculator.Evaluation.Assignment
import Calculator.Proofs.Value.Reading

/-!
# Assignment to an index

What is written under an index is what the index reads afterwards, and nothing else changes: no
other place of the array or object, and no other variable. An assignment that fails changes nothing.
-/

namespace Calculator

/-! ## Containers -/

/-- What putting a value under an index makes of an array or object. -/
inductive Written (index value : Value) : Value → Value → Prop where
  | array {items items' : List Value} {i : Nat} (hindex : index = .int i)
      (hread : ∀ site, Value.lookup site (.array items') index = .ok value)
      (hothers : ∀ place, place ≠ i → items'[place]? = items[place]?)
      (hlength : items'.length = if i = items.length then items.length + 1 else items.length) :
      Written index value (.array items) (.array items')
  | object {entries entries' : Entries}
      (hread : index.equal index = true →
        ∀ site, Value.lookup site (.object entries') index = .ok value)
      (hkeys : entries'.map (·.1) =
        if entries.holds index then entries.map (·.1) else entries.map (·.1) ++ [index])
      (hothers : ∀ key place, Reads (.object entries) key place →
        ¬Reads (.object entries) index place →
        Reads (.object entries') key place ∧ entries'[place]? = entries[place]?) :
      Written index value (.object entries) (.object entries')

namespace Written

variable {index value : Value}

theorem lookup_item {items : List Value} {i : Nat} (hitem : items[i]? = some value) (site : Site) :
    Value.lookup site (.array items) (.int i) = .ok value := by
  have hplace := (List.getElem?_eq_some_iff.mp hitem).1
  obtain ⟨found, hfound, hlookup⟩ :=
    Value.lookup_of_reads site (Reads.item (i := i) hplace (.inl rfl))
  cases hitem.symm.trans hfound
  exact hlookup

theorem set {items : List Value} {i : Nat} (hi : i < items.length) (value : Value) :
    Written (.int i) value (.array items) (.array (items.set i value)) := by
  refine .array rfl (lookup_item ?_) (fun place hplace => ?_) ?_
  · exact List.getElem?_set_self hi
  · exact List.getElem?_set_ne (Ne.symm hplace)
  · rw [List.length_set, if_neg (Nat.ne_of_lt hi)]

theorem append (items : List Value) (value : Value) :
    Written (.int items.length) value (.array items) (.array (items ++ [value])) := by
  refine .array rfl (lookup_item ?_) (fun place hplace => ?_) ?_
  · exact List.getElem?_concat_length
  · rcases Nat.lt_or_gt_of_ne hplace with hlt | hgt
    · exact List.getElem?_append_left hlt
    · rw [List.getElem?_eq_none (Nat.le_of_lt hgt), List.getElem?_eq_none]
      rw [List.length_append]
      exact hgt
  · rw [if_pos rfl, List.length_append]
    rfl

theorem lookup_entry {entries : Entries} {key : Value} {place : Nat}
    (hfirst : entries.First key place) (hvalue : (entries.get ⟨place, hfirst.lt⟩).2 = value)
    (site : Site) : Value.lookup site (.object entries) key = .ok value :=
  (Value.entryAt_of_first site hfirst).trans (congrArg _ hvalue)

/-- The key that is there keeps its place, and equals what it equalled before. -/
theorem replace {entries : Entries} {place : Nat} (hfirst : entries.First index place)
    (value : Value) :
    Written index value (.object entries)
      (.object (entries.set place ((entries.get ⟨place, hfirst.lt⟩).1, value))) := by
  have hkeys : (entries.set place ((entries.get ⟨place, hfirst.lt⟩).1, value)).map (·.1) =
      entries.map (·.1) := by
    rw [List.map_set]
    have hlt : place < (entries.map (·.1)).length := by simpa using hfirst.lt
    simpa using List.set_getElem_self hlt
  have hfirst' {key : Value} {other : Nat} (h : entries.First key other) :
      Entries.First (entries.set place ((entries.get ⟨place, hfirst.lt⟩).1, value)) key other := by
    apply h.of_keys
    exact hkeys.symm ▸ List.prefix_rfl
  refine .object (fun _ => lookup_entry (hfirst' hfirst) (by simp)) ?_ ?_
  · rw [if_pos hfirst.holds, hkeys]
  · rintro key other (hread | hread) hindex
    refine ⟨.entry (hfirst' hread), List.getElem?_set_ne ?_⟩
    rintro rfl
    exact hindex (.entry hfirst)

theorem add {entries : Entries} (hnew : ∀ entry ∈ entries, entry.1.equal index = false)
    (value : Value) :
    Written index value (.object entries) (.object (entries ++ [(index, value)])) := by
  refine .object (fun hself => ?_) ?_ ?_
  · have hfirst : Entries.First (entries ++ [(index, value)]) index entries.length := by
      refine ⟨by simp, by simpa using hself, fun earlier hearlier => ?_⟩
      rw [List.getElem_append_left hearlier]
      exact hnew _ (List.getElem_mem hearlier)
    exact lookup_entry hfirst (by simp)
  · rw [Entries.holds_eq_false hnew, List.map_append]
    rfl
  · rintro key other (hread | hread) -
    refine ⟨.entry (hread.of_keys ?_), List.getElem?_append_left hread.lt⟩
    rw [List.map_append]
    exact List.prefix_append _ _

end Written

namespace Evaluation

variable (site : Site) (name : String) (index value : Value)

/-- Why there is no room for a value: there is no such index, or something has the wrong type. -/
def Refuses (index : Value) (cause : Cause) : Prop :=
  cause = .noSuchKey index ∨ ∃ expected, cause = .valueType expected

theorem valueOf?_variable {name : String} (h : isConstant name = false) (memory : Memory) :
    memory.valueOf? name = memory.bindings.get? name := by
  have hnone : constants.get? name = none := Option.not_isSome_iff_eq_none.mp (Bool.not_eq_true _ ▸ h)
  rw [Memory.valueOf?, hnone, Option.none_or]

theorem assignIndexed_apply (memory : Memory) :
    assignIndexed site name index value memory =
      if isConstant name then (.error (.located site (.constant name)), memory)
      else
        match memory.bindings.get? name with
        | none => (.error (.located site (.unknownVariable name)), memory)
        | some container =>
          match updated site container index value with
          | .ok new => (.ok (), { memory with bindings := memory.bindings.put name new })
          | .error failure => (.error failure, memory) := by
  unfold assignIndexed
  by_cases hconstant : isConstant name = true
  · rw [if_pos hconstant, if_pos hconstant]
    rfl
  rw [if_neg hconstant, if_neg hconstant, get_bind_apply]
  cases memory.bindings.get? name with
  | none => rfl
  | some container =>
    dsimp only
    rw [bind_apply]
    cases updated site container index value with
    | error failure => rfl
    | ok new =>
      change assign site name new memory = _
      unfold assign
      rw [if_neg hconstant]
      rfl

end Evaluation

end Calculator
