import Calculator.Value.Hash
import Calculator.Proofs.Number.Zero
import Calculator.Proofs.Value.Symmetry

/-!
# Equal values and their hashes

Equal values have the same hash. So a table that looks at hashes first finds the entry that is
found without them.
-/

namespace Calculator

open Number (toFloat?)

variable {α : Type} {hasher : Hasher α}

namespace Value

/-! ## Numbers -/

/-- Rounding leaves no integer but zero at zero. -/
theorem nonzero_of_sameNumber {n : Int} {x : Float} (h : sameNumber n x = true) :
    (n != 0) = (x != 0.0) := by
  have hfloat : (Float.ofInt n == x) = true := by
    unfold sameNumber toFloat? at h
    dsimp only at h
    split at h
    case h_1 y hy =>
      split at hy <;> cases hy
      exact h
    case h_2 => cases h
  rw [bne, bne, ← Number.beq_zero_congr hfloat, Number.ofInt_beq_zero]

/-! ## Items -/

theorem hashes_eq (items : List Value) : hashes hasher items = items.map (hash hasher) := by
  induction items with
  | nil => rw [hashes, List.map_nil]
  | cons item items ih => rw [hashes, List.map_cons, ih]

theorem map_eq_map_of_zip {β γ : Type} {f : β → γ} {xs ys : List β}
    (hlength : xs.length = ys.length) (h : ∀ pair ∈ xs.zip ys, f pair.1 = f pair.2) :
    xs.map f = ys.map f := by
  calc xs.map f
    _ = ((xs.zip ys).map Prod.fst).map f := by rw [List.map_fst_zip hlength.le]
    _ = ((xs.zip ys).map Prod.snd).map f := by
      rw [List.map_map, List.map_map]
      exact List.map_congr_left h
    _ = ys.map f := by rw [List.map_snd_zip hlength.ge]

/-! ## Values -/

/-- The induction goes into arrays. Of an object, only the number of entries is hashed. -/
theorem hash_congr {a b : Value} (h : a.equal b = true) : a.hash hasher = b.hash hasher := by
  induction hsize : sizeOf a using Nat.strongRecOn generalizing a b with
  | ind size ih =>
    cases a <;> cases b
    case array.array xs ys =>
      rw [equal_array, Bool.and_eq_true, beq_iff_eq, List.all_eq_true] at h
      obtain ⟨hlength, hitems⟩ := h
      rw [hash, hash, hashes_eq, hashes_eq]
      refine congrArg hasher.tuple (map_eq_map_of_zip hlength fun pair hpair => ?_)
      have hlt : sizeOf pair.1 < size := hsize ▸ sizeOf_item (List.of_mem_zip hpair).1
      exact ih _ hlt (hitems pair hpair) rfl
    case object.object xs ys =>
      rw [equal_object, Bool.and_eq_true, beq_iff_eq] at h
      rw [hash, hash, h.1]
    all_goals simp [equal, sameAs] at h
    case none.none => rfl
    case bool.bool | int.int | string.string | name.name => rw [h]
    case bool.int | bool.float | int.bool | float.bool => rw [hash, hash, h]
    case int.float | float.int => rw [hash, hash, nonzero_of_sameNumber h]
    case float.float => rw [hash, hash, bne, bne, Number.beq_zero_congr h]

/-- Values that are equal, where comparing them comes to an answer, are hashed alike. -/
theorem hash_eq_of_equal (hasher : Hasher α) (a b : Value) (h : a.equal? b = .ok true) :
    a.hash hasher = b.hash hasher := by
  unfold equal? at h
  split at h
  case isTrue => cases h
  case isFalse => exact hash_congr (Except.ok.inj h)

/-- Numbers of three kinds, a zero with a sign, and entries in another order. -/
theorem hash_eq_of_equal_nested :
    let hasher : Hasher Nat := ⟨1, Int.natAbs, String.length, List.foldl (31 * · + ·) 7⟩
    let a := array [.int 3, .float (-0.0), .object [(.string "k", .array [.bool true, .none]),
      (.int 2, .string "t")]]
    let b := array [.bool true, .int 0, .object [(.float 2.0, .string "t"),
      (.string "k", .array [.float 0.5, .none])]]
    a.equal? b = .ok true ∧ a.hash hasher = b.hash hasher := by
  intro hasher a b
  have hequal : a.equal? b = .ok true := by
    rw [equal?_of_inRange rfl rfl]
    decide +kernel
  exact ⟨hequal, hash_eq_of_equal hasher a b hequal⟩

/-! ## Tables -/

theorem matchesKey_eq [BEq α] [LawfulBEq α] (stored key : Value) :
    stored.matchesKey hasher key = stored.equal key := by
  unfold matchesKey
  cases hequal : stored.equal key with
  | false => rw [Bool.and_false]
  | true => rw [hash_congr hequal, beq_self_eq_true, Bool.and_true]

end Value

/-- A table loses no entry. -/
theorem Entries.hashedFind?_eq [BEq α] [LawfulBEq α] (entries : Entries) (key : Value) :
    entries.hashedFind? hasher key = entries.find? key := by
  simp only [hashedFind?, find?, Value.matchesKey_eq]

end Calculator
