import ScoreRelay.Proofs.Service.Evaluation

/-! With a binder that never crashes, whatever leads to an evaluation comes to its end. -/
namespace ScoreRelay

/-- A binder that never crashes. -/
def Binder.Steady {ω : Type} (b : Binder ω) : Prop :=
  ∀ e session w, (b.bind e session w).1.verdict ≠ .crashed

namespace Service

variable {κ ω : Type} {p : Ports κ ω} {s : Service κ ω} {l : Lineup} {scorer : Option Scorer}

theorem bindTo_of_unbound_done (hb : p.binder.Steady) {e : Endpoint}
    (he : scorer.bind Scorer.endpoint = some e) (hu : s.link.state = .unbound) :
    (bindTo p scorer s).1 = .done () := by
  have hv : (Link.answer p.binder e s.link).verdict ≠ .crashed := hb _ _ _
  rw [bindTo_of_unbound he hu, Link.request_eq]
  cases h : (Link.answer p.binder e s.link).verdict with
  | accepted => rfl
  | refused reason => rfl
  | crashed => exact absurd h hv

theorem bindTo_done (hb : p.binder.Steady) (scorer : Option Scorer) (s : Service κ ω) :
    (bindTo p scorer s).1 = .done () := by
  rcases bindTo_cases p scorer s with
    ⟨he, -⟩ | ⟨e, he, hs, -⟩ | ⟨e, he, hu, -⟩ | ⟨e, held, he, hs, hne, -⟩
  · rw [bindTo_of_none he]
  · rw [bindTo_of_held he hs]
  · exact bindTo_of_unbound_done hb he hu
  · rw [bindTo_of_other he hs hne]
    exact bindTo_of_unbound_done hb he release_state

theorem packageChanged_done (hb : p.binder.Steady) (l : Lineup) (t : Trigger) (s : Service κ ω) :
    (packageChanged p l t s).1 = .done () := by
  by_cases ht : t.package ∈ l.candidates
  · rcases packageChanged_of_candidate (p := p) (s := s) ht with he | he <;> rw [he]
    · exact bindTo_done hb _ _
    · exact bindTo_done hb _ _
  · rw [packageChanged_of_stranger ht]

theorem packageEvent_done (hb : p.binder.Steady) (ev : PackageEvent) :
    ∃ n, (s.packageEvent p l ev).1 = .done n := by
  cases hm : s.monitors.packages with
  | none => exact ⟨0, by rw [packageEvent_of_unwatched hm]⟩
  | some m =>
    rw [packageEvent_of_watched hm]
    exact callAll_done (packageChanged_done hb l) _ _ _

theorem settingEvent_done (hb : p.binder.Steady) : ∃ seen, (s.settingEvent p l).1 = .done seen := by
  have he : (evaluate p l s).1 = .done () := bindTo_done hb l.active s
  unfold settingEvent Monitors.dispatchSetting observe
  cases s.monitors.observer with
  | none => exact ⟨false, rfl⟩
  | some target =>
    simp only [if_true]
    split <;> rename_i heq <;> rw [heq] at he
    · exact ⟨true, rfl⟩
    · contradiction

end Service

end ScoreRelay
