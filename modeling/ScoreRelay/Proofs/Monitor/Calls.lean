import ScoreRelay.Monitor

/-! Calling a target for one trigger after the other: what the calls keep, what they bring about, and which
calls are made. -/
namespace ScoreRelay

variable {σ : Type} {call : Trigger → σ → Outcome Unit × σ}

/-- What every call keeps, calling for any triggers keeps. -/
theorem callAll_keeps {P : σ → Prop} {ts : List Trigger}
    (hk : ∀ t ∈ ts, ∀ s, P s → P (call t s).2) (n : Nat) {s : σ} (hs : P s) :
    P (PackageMonitor.callAll call ts n s).2 := by
  induction ts generalizing n s with
  | nil => exact hs
  | cons t ts ih =>
    have ht := hk t (by simp) s hs
    unfold PackageMonitor.callAll
    split <;> rename_i heq <;> rw [heq] at ht
    · exact ih (fun t' hm => hk t' (by simp [hm])) _ ht
    · exact ht

/-- What every call brings about holds in the end, also if one crashes, unless there was no call. -/
theorem callAll_establishes {P : σ → Prop} {ts : List Trigger}
    (hp : ∀ t ∈ ts, ∀ s, P (call t s).2) (n : Nat) (s : σ) :
    ts = [] ∧ (PackageMonitor.callAll call ts n s).2 = s ∨
      P (PackageMonitor.callAll call ts n s).2 := by
  induction ts generalizing n s with
  | nil => exact Or.inl ⟨rfl, rfl⟩
  | cons t ts ih =>
    right
    have ht := hp t (by simp) s
    unfold PackageMonitor.callAll
    split <;> rename_i heq <;> rw [heq] at ht
    · rcases ih (fun t' hm => hp t' (by simp [hm])) (n + 1) _ with ⟨-, he⟩ | h
      · rw [he]
        exact ht
      · exact h
    · exact ht

/-- Calls that a view of the state turns into calls of another kind are turned into these one by one. -/
theorem callAll_view {τ : Type} {f : σ → τ} {call' : Trigger → τ → Outcome Unit × τ}
    (h : ∀ t s, call' t (f s) = Prod.map id f (call t s)) (ts : List Trigger) (n : Nat) (s : σ) :
    PackageMonitor.callAll call' ts n (f s) = Prod.map id f (PackageMonitor.callAll call ts n s) := by
  induction ts generalizing n s with
  | nil => rfl
  | cons t ts ih =>
    unfold PackageMonitor.callAll
    rw [h]
    rcases call t s with ⟨_ | _, s'⟩
    · exact ih (n + 1) s'
    · rfl

/-- Calls that do nothing until one of them brings something about, which the others keep. -/
theorem callAll_reaches {P : σ → Prop} {ts : List Trigger} {s : σ}
    (hs : ∀ t ∈ ts, call t s = (.done (), s) ∨ P (call t s).2) (hr : ∃ t ∈ ts, P (call t s).2)
    (hk : ∀ t ∈ ts, ∀ s', P s' → P (call t s').2) (n : Nat) :
    P (PackageMonitor.callAll call ts n s).2 := by
  induction ts generalizing n with
  | nil => simp at hr
  | cons t ts ih =>
    obtain ⟨ht, hts⟩ := List.forall_mem_cons.mp hs
    have hkeep (m : Nat) {s' : σ} (h : P s') : P (PackageMonitor.callAll call ts m s').2 :=
      callAll_keeps (fun t' hm => hk t' (List.mem_cons_of_mem _ hm)) m h
    unfold PackageMonitor.callAll
    by_cases hp : P (call t s).2
    · split <;> rename_i heq <;> rw [heq] at hp
      · exact hkeep _ hp
      · exact hp
    · have hd := ht.resolve_right hp
      rw [hd]
      obtain ⟨t', hm, hp'⟩ := hr
      rcases List.mem_cons.mp hm with rfl | hm
      · exact absurd hp' hp
      · exact ih hts ⟨t', hm, hp'⟩ (fun t' hm => hk t' (List.mem_cons_of_mem _ hm)) (n + 1)

theorem callAll_done (hc : ∀ t s, (call t s).1 = .done ()) (ts : List Trigger) (n : Nat) (s : σ) :
    ∃ m, (PackageMonitor.callAll call ts n s).1 = .done m := by
  induction ts generalizing n s with
  | nil => exact ⟨n, rfl⟩
  | cons t ts ih =>
    have ht := hc t s
    unfold PackageMonitor.callAll
    split <;> rename_i heq <;> rw [heq] at ht
    · exact ih _ _
    · contradiction

/-- Where every call adds an entry to a record, there is in the end one for each trigger, and the answer is
their number; or a call has crashed, and no call came after it. -/
theorem callAll_entries {α : Type} (entries : σ → List α) {entry : Trigger → α}
    (h : ∀ t s, entries (call t s).2 = entries s ++ [entry t]) (ts : List Trigger) (n : Nat) (s : σ) :
    (∃ s', PackageMonitor.callAll call ts n s = (.done (n + ts.length), s') ∧
        entries s' = entries s ++ ts.map entry) ∨
      ∃ made left s', ts = made ++ left ∧ made ≠ [] ∧
        PackageMonitor.callAll call ts n s = (.crashed, s') ∧
        entries s' = entries s ++ made.map entry := by
  induction ts generalizing n s with
  | nil => exact Or.inl ⟨s, rfl, by simp⟩
  | cons t ts ih =>
    have ht := h t s
    unfold PackageMonitor.callAll
    split <;> rename_i s' heq <;> rw [heq] at ht
    · rcases ih (n + 1) s' with ⟨s'', he, hs⟩ | ⟨made, left, s'', rfl, -, he, hs⟩
      · refine Or.inl ⟨s'', ?_, by simp [hs, ht]⟩
        rw [he, List.length_cons, Nat.add_right_comm, Nat.add_assoc]
      · exact Or.inr ⟨t :: made, left, s'', rfl, by simp, he, by simp [hs, ht]⟩
    · exact Or.inr ⟨[t], ts, s', rfl, by simp, rfl, ht⟩

end ScoreRelay
