import Calculator.Evaluation.Calling
import Calculator.Function.Builtins

/-!
# Calls of builtin functions

Where no extension has taken its name, a builtin function gets its arguments under the names of its
parameters. What it comes to depends on nothing else, and the memory stays as it is.
-/

namespace Calculator

/-! ## Binding -/

namespace Parameter

/-- Exactly one argument belongs to it. -/
structure IsSingle (parameter : Parameter) : Prop where
  needed : parameter.optional = false
  alone : parameter.plural = false

end Parameter

namespace Signature

variable (site : Site) (name : String) {p q : Parameter} {a b : Value} {values : List Value}

theorem bind_one (hp : p.IsSingle) (ha : p.expected.admits a = true) :
    bind site ⟨name, [p]⟩ [a] = .ok ⟨[(p.name, [a])], [a]⟩ := by
  simp [bind, isAmbiguous, takes, least, most?, isPlural, hp.needed, hp.alone, Arguments.openSlot,
    bindFrom, parameter?, ha, Arguments.bind, Arguments.addTo]

theorem bind_two (hp : p.IsSingle) (hq : q.IsSingle) (hne : p.name ≠ q.name)
    (ha : p.expected.admits a = true) (hb : q.expected.admits b = true) :
    bind site ⟨name, [p, q]⟩ [a, b] = .ok ⟨[(p.name, [a]), (q.name, [b])], [a, b]⟩ := by
  have hslot : (q.name == p.name) = false := beq_false_of_ne (Ne.symm hne)
  simp [bind, isAmbiguous, takes, least, most?, isPlural, hp.needed, hp.alone, hq.needed, hq.alone,
    Arguments.openSlot, List.lookup_cons, hslot, bindFrom, parameter?, ha, hb, Arguments.bind,
    Arguments.addTo, hne]

theorem bindFrom_plural (hvalues : ∀ value ∈ values, p.expected.admits value = true) (i : Nat)
    (bound : List Value) :
    bindFrom site ⟨name, [p]⟩ i ⟨[(p.name, bound)], bound⟩ values =
      .ok ⟨[(p.name, bound ++ values)], bound ++ values⟩ := by
  induction values generalizing i bound with
  | nil => rw [bindFrom, List.append_nil]
  | cons value values ih =>
    rw [List.forall_mem_cons] at hvalues
    have hparameter : parameter? ⟨name, [p]⟩ i = some p := by simp [parameter?]
    rw [bindFrom, hparameter]
    dsimp only
    rw [if_pos hvalues.1]
    simp only [Arguments.bind, Arguments.addTo, if_true]
    rw [ih hvalues.2, List.append_assoc]
    rfl

theorem bind_plural (hplural : p.plural = true) (hvalues : values ≠ [])
    (hadmits : ∀ value ∈ values, p.expected.admits value = true) :
    bind site ⟨name, [p]⟩ values = .ok ⟨[(p.name, values)], values⟩ := by
  have htakes : takes ⟨name, [p]⟩ values.length = true := by
    have hleast : least ⟨name, [p]⟩ ≤ values.length :=
      Nat.le_trans List.countP_le_length (List.length_pos_iff.mpr hvalues)
    simp [takes, most?, isPlural, hplural, hleast]
  have hambiguous : isAmbiguous ⟨name, [p]⟩ = false := rfl
  rw [bind, hambiguous, htakes]
  exact bindFrom_plural site name hadmits 0 []

end Signature

/-! ## Calling -/

/-- The name belongs to the builtin function and not to an extension. -/
structure Setting.HasBuiltin (setting : Setting) (name : String) : Prop where
  table : setting.functions.find? name = FunctionTable.builtin.find? name
  host : ∀ host ∈ setting.host, host.function? name = none

namespace Evaluation

variable {setting : Setting} {name : String} {function : Function} {arguments : List Value}

theorem callName_of_hasBuiltin (h : setting.HasBuiltin name)
    (hfunction : FunctionTable.builtin.find? name = some function) (deeper : Deeper) (site : Site)
    (arguments : List Value) (memory : Memory) :
    callName setting deeper site name arguments memory =
      callFunction setting deeper site function arguments memory := by
  have hhost : (setting.host.filter fun host => (host.function? name).isSome) = none := by
    rw [Option.filter_eq_none_iff]
    intro host hmem
    rw [h.host host hmem]
    exact nofun
  have htable : setting.functions.find? name = some function := h.table.trans hfunction
  simp only [callName, hhost, htable]
  rfl

theorem callName_builtin {f : Call → Attempt Value} {site : Site} {bound : Arguments}
    (h : setting.HasBuiltin name) (hfunction : FunctionTable.builtin.find? name = some function)
    (hbehaviour : function.behaviour = .compute f)
    (hbound : function.signature.bind site arguments = .ok bound) (deeper : Deeper)
    (memory : Memory) :
    callName setting deeper site name arguments memory =
      (f ⟨site, function.signature, bound⟩, memory) := by
  rw [callName_of_hasBuiltin h hfunction, callFunction, hbound, hbehaviour]
  change (ofAttempt (f ⟨site, function.signature, bound⟩) : Evaluation Value) memory = _
  cases f ⟨site, function.signature, bound⟩ <;> rfl

end Evaluation

end Calculator
