import Mathlib.Data.List.Sort
import ScoreRelay.Proofs.Cache.Scores

/-! A batch with a record of another kind. The cache turns it down when it comes to that record, and keeps
what it has taken in before. -/
namespace ScoreRelay.MemoryCache

variable {c : MemoryCache} {n : ScoredNetwork} {ms ns own rest : List ScoredNetwork} {id : String}

/-- No record behind this one has the same identifier. -/
def Latest (n : ScoredNetwork) (ns : List ScoredNetwork) : Prop :=
  ∃ before after, ns = before ++ n :: after ∧ ∀ m ∈ after, m.key.id ≠ n.key.id

theorem getLast?_filter_id :
    (ns.filter fun m => m.key.id = id).getLast? = some n ↔ Latest n ns ∧ n.key.id = id := by
  rw [List.getLast?_eq_some_iff]
  constructor
  · rintro ⟨ys, hy⟩
    obtain ⟨before, l, rfl, -, hl⟩ := List.filter_eq_append_iff.mp hy
    obtain ⟨l, after, rfl, -, hn, ha⟩ := List.filter_eq_cons_iff.mp hl
    have hid : n.key.id = id := by simpa using hn
    refine ⟨⟨before ++ l, after, by simp, fun m hm he => ?_⟩, hid⟩
    exact List.filter_eq_nil_iff.mp ha m hm (by simpa using he.trans hid)
  · rintro ⟨⟨before, after, rfl, ha⟩, rfl⟩
    refine ⟨before.filter fun m => m.key.id = n.key.id, ?_⟩
    have hnil : after.filter (fun m => m.key.id = n.key.id) = [] := by
      simpa [List.filter_eq_nil_iff] using ha
    simp [hnil]

/-- What can be found stays the same exactly if the latest record under each identifier was there already. -/
theorem find_putAll_eq_iff :
    (∀ id, (putAll ns ms).find? (fun m => m.key.id = id) = ms.find? fun m => m.key.id = id) ↔
      ∀ n, Latest n ns → ms.find? (fun m => m.key.id = n.key.id) = some n := by
  simp only [find_putAll]
  constructor
  · intro h n hn
    rw [← h n.key.id, getLast?_filter_id.mpr ⟨hn, rfl⟩, Option.some_or]
  · intro h id
    cases hl : (ns.filter fun m => m.key.id = id).getLast? with
    | none => rw [Option.none_or]
    | some n =>
      obtain ⟨hn, rfl⟩ := getLast?_filter_id.mp hl
      rw [Option.some_or, h n hn]

theorem mem_iff_find (h : Ascending ms) :
    n ∈ ms ↔ ms.find? (fun m => m.key.id = n.key.id) = some n :=
  ⟨find_of_mem h, List.mem_of_find?_eq_some⟩

/-- Where identifiers ascend, the records are known by what can be found. -/
theorem eq_of_find (h : Ascending ms) (h' : Ascending ns)
    (hf : ∀ id, ms.find? (fun m => m.key.id = id) = ns.find? fun m => m.key.id = id) : ms = ns := by
  have : Std.Irrefl fun m n : ScoredNetwork => m.key.id < n.key.id :=
    ⟨fun m => String.lt_irrefl m.key.id⟩
  have : Std.Antisymm fun m n : ScoredNetwork => m.key.id < n.key.id :=
    ⟨fun m _ hlt hgt => absurd (String.lt_trans hlt hgt) (String.lt_irrefl m.key.id)⟩
  refine List.Pairwise.eq_of_mem_iff h h' fun m => ?_
  rw [mem_iff_find h, mem_iff_find h', hf]

theorem putAll_eq_self_iff (h : Ascending ms) :
    putAll ns ms = ms ↔ ∀ n, Latest n ns → n ∈ ms := by
  simp only [mem_iff_find h, ← find_putAll_eq_iff]
  constructor
  · intro he id
    rw [he]
  · exact eq_of_find (ascending_putAll h) h

/-- Records of the cache's own kind are taken in before those behind them are looked at. -/
theorem absorb_append (h : ∀ m ∈ own, m.networkType = c.networkType)
    (rest : List ScoredNetwork) : c.absorb (own ++ rest) =
    absorb { c with scores := putAll (own.filter fun m => c.accepts m.key) c.scores } rest := by
  induction own generalizing c with
  | nil => rfl
  | cons m own ih =>
    obtain ⟨hm, hown⟩ := List.forall_mem_cons.mp h
    rw [List.cons_append, absorb, if_neg (not_not_intro hm)]
    cases ha : c.accepts m.key with
    | true =>
      rw [if_pos rfl, ih (c := { c with scores := put m c.scores }) hown]
      simp only [List.filter_cons, ha, if_true]
      rfl
    | false =>
      rw [if_neg Bool.false_ne_true, ih hown]
      simp only [List.filter_cons, ha, Bool.false_eq_true, if_false]

theorem update_append (h : ∀ m ∈ own, m.networkType = c.networkType)
    (hn : n.networkType ≠ c.networkType) : c.update (own ++ n :: rest) =
      (some n.networkType, { c with
        scores := putAll (own.filter fun m => c.accepts m.key) c.scores
        updates := c.updates + 1 }) := by
  have ha := absorb_append (c := { c with updates := c.updates + 1 }) h (n :: rest)
  rw [absorb, if_pos hn] at ha
  exact ha

/-- A batch is of one kind, or there is a first record that is not. -/
theorem split_batch (t : NetworkType) (batch : List ScoredNetwork) :
    (∀ m ∈ batch, m.networkType = t) ∨ ∃ own n rest, batch = own ++ n :: rest ∧
      (∀ m ∈ own, m.networkType = t) ∧ n.networkType ≠ t := by
  cases hf : batch.find? fun m => m.networkType ≠ t with
  | none =>
    refine Or.inl fun m hm => ?_
    simpa using List.find?_eq_none.mp hf m hm
  | some n =>
    obtain ⟨hn, own, rest, hb, hown⟩ := List.find?_eq_some_iff_append.mp hf
    refine Or.inr ⟨own, n, rest, hb, fun m hm => ?_, by simpa using hn⟩
    simpa using hown m hm

/-- A batch is turned down exactly if it has a record of another kind. What stands before the first such record
is taken in all the same, as far as the filter lets it pass, and nothing else changes but the count of batches.
So the scores are left alone exactly if each of the records taken in, but those replaced by later ones, was
stored already. -/
theorem rejected_batch_keeps_prefix (c : MemoryCache) (batch : List ScoredNetwork) :
    ((c.update batch).1.isSome = true ↔ ∃ n ∈ batch, n.networkType ≠ c.networkType) ∧
      ∀ t, (c.update batch).1 = some t → ∃ own n rest, batch = own ++ n :: rest ∧
        (∀ m ∈ own, m.networkType = c.networkType) ∧ n.networkType = t ∧ t ≠ c.networkType ∧
        let taken := own.filter fun m => c.accepts m.key
        (c.update batch).2 =
            { c with scores := putAll taken c.scores, updates := c.updates + 1 } ∧
          ((∀ id, (c.update batch).2.score? id = c.score? id) ↔
            ∀ m, Latest m taken → c.score? m.key.id = some m) ∧
          (Ascending c.scores →
            ((c.update batch).2.scores = c.scores ↔ ∀ m, Latest m taken → m ∈ c.scores)) := by
  rcases split_batch c.networkType batch with hown | ⟨own, n, rest, rfl, hown, hn⟩
  · rw [update_own hown]
    refine ⟨?_, by simp⟩
    simpa using hown
  · rw [update_append hown hn]
    have hmem : n ∈ own ++ n :: rest := List.mem_append_right own List.mem_cons_self
    refine ⟨⟨fun _ => ⟨n, hmem, hn⟩, fun _ => rfl⟩, ?_⟩
    intro t ht
    obtain rfl := Option.some.inj ht
    exact ⟨own, n, rest, rfl, hown, rfl, hn, rfl, find_putAll_eq_iff, putAll_eq_self_iff⟩

section Stray

/-- An empty cache for wifi networks. -/
def wifiOnly : MemoryCache where
  id := "c"
  networkType := .wifi
  filter := .none

/-- A cellular network behind a wifi network. -/
def strayBatch : List ScoredNetwork := [⟨⟨.wifi, "a"⟩, 1, false⟩, ⟨⟨.cellular, "b"⟩, 2, false⟩]

/-- The cache turns the batch down and yet holds a score that it did not hold before. -/
theorem score_kept_despite_rejection : (wifiOnly.update strayBatch).1 = some .cellular ∧
    (wifiOnly.update strayBatch).2.scores = [⟨⟨.wifi, "a"⟩, 1, false⟩] ∧
    (wifiOnly.update strayBatch).2.scores ≠ wifiOnly.scores := by
  decide

end Stray

end ScoreRelay.MemoryCache
