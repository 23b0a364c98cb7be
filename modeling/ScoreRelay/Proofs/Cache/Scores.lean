import ScoreRelay.Cache

/-! What a cache holds after a batch of its own kind: the records that its filter let pass, and of those
from before the ones whose identifier is not among them. -/
namespace ScoreRelay.MemoryCache

variable {c : MemoryCache} {m n : ScoredNetwork} {ms ns batch : List ScoredNetwork}

/-- Ascending identifiers, so that none comes twice. -/
def Ascending (ms : List ScoredNetwork) : Prop := ms.Pairwise fun m n => m.key.id < n.key.id

/-- The order is what makes a record with the same identifier be found. -/
theorem mem_put (h : Ascending ms) : m ∈ put n ms ↔ m = n ∨ m ∈ ms ∧ m.key.id ≠ n.key.id := by
  induction ms with
  | nil => simp [put]
  | cons x ms ih =>
    obtain ⟨hx, hms⟩ := List.pairwise_cons.mp h
    unfold put
    split
    · rename_i he
      have hne : ∀ y ∈ ms, y.key.id ≠ n.key.id := fun y hy hyn =>
        String.lt_irrefl _ (hyn ▸ he ▸ hx y hy)
      grind
    · split
      · rename_i hne hlt
        have hall : ∀ y ∈ ms, y.key.id ≠ n.key.id := fun y hy hyn =>
          String.lt_irrefl _ (String.lt_trans hlt (hyn ▸ hx y hy))
        grind
      · rename_i hne hlt
        rw [List.mem_cons, ih hms]
        grind

theorem ascending_put (h : Ascending ms) : Ascending (put n ms) := by
  induction ms with
  | nil => simp [put, Ascending]
  | cons x ms ih =>
    obtain ⟨hx, hms⟩ := List.pairwise_cons.mp h
    unfold put
    split
    · rename_i he
      exact List.pairwise_cons.mpr ⟨fun y hy => he ▸ hx y hy, hms⟩
    · split
      · rename_i hne hlt
        refine List.pairwise_cons.mpr ⟨?_, h⟩
        intro y hy
        rcases List.mem_cons.mp hy with rfl | hy
        · exact hlt
        · exact String.lt_trans hlt (hx y hy)
      · rename_i hne hlt
        refine List.pairwise_cons.mpr ⟨?_, ih hms⟩
        intro y hy
        rcases (mem_put hms).mp hy with rfl | ⟨hy, -⟩
        · exact Std.lt_of_le_of_ne (Std.not_lt.mp hlt) (Ne.symm hne)
        · exact hx y hy

/-- Keep one record after the other. -/
def putAll (ns ms : List ScoredNetwork) : List ScoredNetwork := ns.foldl (fun ms n => put n ms) ms

theorem ascending_putAll (h : Ascending ms) : Ascending (putAll ns ms) := by
  induction ns generalizing ms with
  | nil => exact h
  | cons n ns ih => exact ih (ascending_put h)

theorem mem_putAll (h : Ascending ms) (hm : m ∈ putAll ns ms) :
    m ∈ ns ∨ m ∈ ms ∧ ∀ n ∈ ns, n.key.id ≠ m.key.id := by
  induction ns generalizing ms with
  | nil => exact Or.inr ⟨hm, by simp⟩
  | cons n ns ih =>
    rcases ih (ascending_put h) hm with hm | ⟨hm, hns⟩
    · exact Or.inl (List.mem_cons_of_mem _ hm)
    · rcases (mem_put h).mp hm with rfl | ⟨hm, hne⟩
      · exact Or.inl List.mem_cons_self
      · refine Or.inr ⟨hm, ?_⟩
        intro x hx
        rcases List.mem_cons.mp hx with rfl | hx
        · exact Ne.symm hne
        · exact hns x hx

theorem find_put (n : ScoredNetwork) (ms : List ScoredNetwork) (id : String) :
    (put n ms).find? (fun m => m.key.id = id) =
      if n.key.id = id then some n else ms.find? fun m => m.key.id = id := by
  induction ms with
  | nil => by_cases hn : n.key.id = id <;> simp [put, hn]
  | cons x ms ih =>
    unfold put
    split
    · rename_i he
      by_cases hn : n.key.id = id <;> simp [hn, ← he]
    · split
      · by_cases hn : n.key.id = id <;> simp [hn, List.find?_cons]
      · rename_i hne _
        by_cases hx : x.key.id = id
        · have hn : n.key.id ≠ id := fun h => hne (h.trans hx.symm)
          simp [hx, hn]
        · simp [hx, ih]

/-- Of the records under an identifier the last one stays. -/
theorem find_putAll (ns ms : List ScoredNetwork) (id : String) :
    (putAll ns ms).find? (fun m => m.key.id = id) =
      ((ns.filter fun n => n.key.id = id).getLast?).or (ms.find? fun m => m.key.id = id) := by
  induction ns generalizing ms with
  | nil => rfl
  | cons n ns ih =>
    change (putAll ns (put n ms)).find? _ = _
    rw [ih, find_put]
    by_cases hn : n.key.id = id
    · simp only [hn, if_true, List.filter_cons, decide_true, List.getLast?_cons, Option.some_or]
      cases (ns.filter fun n => n.key.id = id).getLast? <;> rfl
    · simp [hn]

/-- With identifiers in order each record is found under its own. -/
theorem find_of_mem (h : Ascending ms) (hn : n ∈ ms) :
    ms.find? (fun m => m.key.id = n.key.id) = some n := by
  induction ms with
  | nil => simp at hn
  | cons x ms ih =>
    obtain ⟨hx, hms⟩ := List.pairwise_cons.mp h
    rcases List.mem_cons.mp hn with rfl | hn
    · simp
    · have hne : x.key.id ≠ n.key.id := fun he => String.lt_irrefl _ (he ▸ hx n hn)
      simp [hne, ih hms hn]

theorem absorb_own (h : ∀ n ∈ batch, n.networkType = c.networkType) : c.absorb batch =
    (none, { c with scores := putAll (batch.filter fun n => c.accepts n.key) c.scores }) := by
  induction batch generalizing c with
  | nil => rfl
  | cons n batch ih =>
    obtain ⟨hn, hb⟩ := List.forall_mem_cons.mp h
    unfold absorb
    rw [if_neg (not_not_intro hn)]
    cases ha : c.accepts n.key with
    | true =>
      rw [if_pos rfl, ih (c := { c with scores := put n c.scores }) hb]
      simp only [List.filter_cons, ha, if_true]
      rfl
    | false =>
      rw [if_neg Bool.false_ne_true, ih hb]
      simp only [List.filter_cons, ha, Bool.false_eq_true, if_false]

/-- A batch of the cache's own kind is taken in whole, as far as the filter lets it pass. -/
theorem update_own (h : ∀ n ∈ batch, n.networkType = c.networkType) : c.update batch =
    (none, { c with
      scores := putAll (batch.filter fun n => c.accepts n.key) c.scores
      updates := c.updates + 1 }) :=
  absorb_own (c := { c with updates := c.updates + 1 }) h

end ScoreRelay.MemoryCache
