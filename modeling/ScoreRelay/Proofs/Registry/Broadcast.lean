import ScoreRelay.Registry.Broadcast

/-! A broadcast is one pass over the registrations of all its sets, whatever becomes of the calls. -/
namespace ScoreRelay

variable {κ σ : Type} {act : Registration κ → σ → Delivery × σ}

/-- All registrations, in the order in which they are called. -/
def Registry.listed (r : Registry κ) : List (Registration κ) :=
  r.snapshotAll.flatMap ListenerSet.registrations

theorem broadcastSet_state (regs : List (Registration κ)) (tally : Tally) (s : σ) :
    (broadcastSet act regs tally s).2 = regs.foldl (fun s reg => (act reg s).2) s := by
  induction regs generalizing tally s with
  | nil => rfl
  | cons reg regs ih => exact ih _ _

theorem broadcast_state (sets : List (ListenerSet κ)) (s : σ) : (broadcast act sets s).2 =
    (sets.flatMap ListenerSet.registrations).foldl (fun s reg => (act reg s).2) s := by
  unfold broadcast
  generalize ({} : Tally) = tally
  induction sets generalizing tally s with
  | nil => rfl
  | cons set sets ih =>
    rw [List.flatMap_cons, List.foldl_append, ← broadcastSet_state set.registrations tally]
    exact ih _ _

/-- What every call to one of the caches keeps, a broadcast keeps. -/
theorem broadcast_keeps_of_mem {P : σ → Prop} {sets : List (ListenerSet κ)}
    (hk : ∀ reg ∈ sets.flatMap ListenerSet.registrations, ∀ s, P s → P (act reg s).2) {s : σ}
    (hs : P s) : P (broadcast act sets s).2 := by
  rw [broadcast_state]
  generalize sets.flatMap ListenerSet.registrations = regs at hk ⊢
  induction regs generalizing s with
  | nil => exact hs
  | cons reg regs ih =>
    obtain ⟨hreg, hregs⟩ := List.forall_mem_cons.mp hk
    exact ih (hreg s hs) hregs

theorem broadcast_keeps {P : σ → Prop} (hk : ∀ reg s, P s → P (act reg s).2)
    (sets : List (ListenerSet κ)) {s : σ} (hs : P s) : P (broadcast act sets s).2 :=
  broadcast_keeps_of_mem (fun reg _ => hk reg) hs

end ScoreRelay
