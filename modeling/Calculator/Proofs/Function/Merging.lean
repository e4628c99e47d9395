import Mathlib.Data.List.Nodup
import Mathlib.Data.List.Induction
import Calculator.Proofs.Function.Collections

/-!
# Objects as maps

A key finds the first key that equals it, and it may equal several. So a key can still be there
after its entry has been removed, and what is merged in may go to another place than the one where
it is looked for. Where a key means one place only, both behave as with any map.
-/

namespace Calculator

open Evaluation

namespace Entries

variable {entries others : Entries} {key value : Value} {place : Nat}

/-! ## Removal -/

theorem insertAll_concat (entries others : Entries) (other : Value × Value) :
    insertAll entries (others ++ [other]) =
      insert (insertAll entries others) other.1 other.2 := by
  rw [insertAll, List.foldl_append]
  rfl

theorem insertAll_nil (h : Distinct entries) : insertAll [] entries = entries := by
  induction entries using List.reverseRecOn with
  | nil => rfl
  | append_singleton entries last ih =>
    obtain ⟨hentries, -, hlast⟩ := List.pairwise_append.mp h
    rw [insertAll_concat, ih hentries, insert_of_new fun entry hentry =>
      hlast entry hentry last (List.mem_singleton_self last)]

end Entries

namespace Builtin

open Value

variable {setting : Setting} (deeper : Deeper) (site : Site) (memory : Memory)

end Builtin

end Calculator
