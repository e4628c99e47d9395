import Calculator.Grammar.Chart

/-!
# Lists of endings

Endings are kept with fewer and fewer tokens left, one for each number of tokens. Putting lists
together keeps one of the endings with each number that either list has.
-/

namespace Calculator.Grammar

/-- Each ending leaves fewer tokens than those before it. -/
def Descending (ends : List Ending) : Prop := ends.Pairwise fun a b => b.rest < a.rest

/-- Some ending leaves so many tokens. -/
def Leaves (ends : List Ending) (rest : Nat) : Prop := rest ∈ ends.map (·.rest)

variable {e f : Ending} {ends : List Ending} {rest : Nat}

@[simp]
theorem leaves_nil : Leaves [] rest ↔ False := by simp [Leaves]

@[simp]
theorem leaves_cons : Leaves (e :: ends) rest ↔ e.rest = rest ∨ Leaves ends rest := by
  simp [Leaves, eq_comm]

theorem leaves_iff : Leaves ends rest ↔ ∃ e ∈ ends, e.rest = rest := List.mem_map

theorem Descending.eq_of_rest (h : Descending ends) (he : e ∈ ends) (hf : f ∈ ends)
    (hrest : e.rest = f.rest) : e = f := by
  induction ends with
  | nil => cases he
  | cons g ends ih =>
    obtain ⟨hfirst, hothers⟩ := List.pairwise_cons.mp h
    rcases List.mem_cons.mp he with rfl | hlater <;> rcases List.mem_cons.mp hf with rfl | hlast
    · rfl
    · exact absurd hrest (Nat.ne_of_gt (hfirst f hlast))
    · exact absurd hrest (Nat.ne_of_lt (hfirst e hlater))
    · exact ih hothers hlater hlast

namespace Ending

/-- Of two that end at the same place, either one is kept. -/
theorem rest_of_beats (h : f.rest = e.rest) : (if e.beats f then e else f).rest = e.rest := by
  split
  · rfl
  · exact h

theorem mem_addTo (h : f ∈ addTo e ends) : f = e ∨ f ∈ ends := by
  fun_induction addTo e ends with
  | case1 => exact .inl (List.mem_singleton.mp h)
  | case2 => exact List.mem_cons.mp h
  | case3 g others _ hrest =>
    rcases List.mem_cons.mp h with rfl | h
    · split
      · exact .inl rfl
      · exact .inr List.mem_cons_self
    · exact .inr (List.mem_cons_of_mem g h)
  | case4 g others _ _ ih =>
    rcases List.mem_cons.mp h with rfl | h
    · exact .inr List.mem_cons_self
    · exact (ih h).imp_right (List.mem_cons_of_mem g)

theorem leaves_addTo : Leaves (addTo e ends) rest ↔ e.rest = rest ∨ Leaves ends rest := by
  fun_induction addTo e ends with
  | case1 => simp
  | case2 => exact leaves_cons
  | case3 g others _ hrest =>
    rw [leaves_cons, leaves_cons, rest_of_beats hrest, hrest, or_self_left]
  | case4 g others _ _ ih => rw [leaves_cons, leaves_cons, ih, or_left_comm]

theorem descending_addTo (h : Descending ends) : Descending (addTo e ends) := by
  fun_induction addTo e ends with
  | case1 => exact List.pairwise_singleton _ _
  | case2 g others hless =>
    refine List.pairwise_cons.mpr ⟨fun f hf => ?_, h⟩
    rcases List.mem_cons.mp hf with rfl | hf
    · exact hless
    · exact Nat.lt_trans ((List.pairwise_cons.mp h).1 f hf) hless
  | case3 g others _ hrest =>
    obtain ⟨hfirst, hothers⟩ := List.pairwise_cons.mp h
    refine List.pairwise_cons.mpr ⟨fun f hf => ?_, hothers⟩
    rw [rest_of_beats hrest, ← hrest]
    exact hfirst f hf
  | case4 g others hless hne ih =>
    obtain ⟨hfirst, hothers⟩ := List.pairwise_cons.mp h
    refine List.pairwise_cons.mpr ⟨fun f hf => ?_, ih hothers⟩
    rcases mem_addTo hf with rfl | hf
    · omega
    · exact hfirst f hf

end Ending

namespace Found

variable {a b : Found} {order : Nat}

theorem mem_merge (h : e ∈ (merge a b).ends) : e ∈ a.ends ∨ e ∈ b.ends := by
  change e ∈ a.ends.foldr Ending.addTo b.ends at h
  generalize a.ends = ends at h
  induction ends with
  | nil => exact .inr h
  | cons f ends ih =>
    rcases Ending.mem_addTo h with rfl | h
    · exact .inl List.mem_cons_self
    · exact (ih h).imp_left (List.mem_cons_of_mem f)

theorem leaves_merge : Leaves (merge a b).ends rest ↔ Leaves a.ends rest ∨ Leaves b.ends rest := by
  change Leaves (a.ends.foldr Ending.addTo b.ends) rest ↔ _
  induction a.ends with
  | nil => simp
  | cons f ends ih => rw [List.foldr_cons, Ending.leaves_addTo, ih, leaves_cons, or_assoc]

theorem descending_merge (h : Descending b.ends) : Descending (merge a b).ends := by
  change Descending (a.ends.foldr Ending.addTo b.ends)
  induction a.ends with
  | nil => exact h
  | cons f ends ih => exact Ending.descending_addTo ih

section

variable {α : Type} {f : α → Found} {steps : List α} {last : Found}

theorem mem_foldr_merge (h : e ∈ (steps.foldr (fun s others => (f s).merge others) last).ends) :
    (∃ s ∈ steps, e ∈ (f s).ends) ∨ e ∈ last.ends := by
  induction steps with
  | nil => exact .inr h
  | cons s steps ih =>
    rcases mem_merge h with h | h
    · exact .inl ⟨s, List.mem_cons_self, h⟩
    · exact (ih h).imp_left fun ⟨t, ht, h⟩ => ⟨t, List.mem_cons_of_mem s ht, h⟩

theorem leaves_foldr_merge :
    Leaves (steps.foldr (fun s others => (f s).merge others) last).ends rest ↔
      (∃ s ∈ steps, Leaves (f s).ends rest) ∨ Leaves last.ends rest := by
  induction steps with
  | nil => simp
  | cons s steps ih => simp [leaves_merge, ih, or_assoc]

theorem descending_foldr_merge (h : Descending last.ends) :
    Descending (steps.foldr (fun s others => (f s).merge others) last).ends := by
  induction steps with
  | nil => exact h
  | cons s steps ih => exact descending_merge ih

end

theorem mem_withOrder (h : e ∈ (withOrder order a).ends) :
    ∃ f ∈ a.ends, f.rest = e.rest ∧ f.parts = e.parts := by
  obtain ⟨f, hf, rfl⟩ := List.mem_map.mp h
  exact ⟨f, hf, rfl, rfl⟩

theorem leaves_withOrder : Leaves (withOrder order a).ends rest ↔ Leaves a.ends rest := by
  simp only [Leaves, withOrder, List.map_map, Function.comp_def]

end Found

end Calculator.Grammar
