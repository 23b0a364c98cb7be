import ScoreRelay.Proofs.Link.Calls
import ScoreRelay.Proofs.Monitor.Calls
import ScoreRelay.Proofs.Registry.Broadcast
import ScoreRelay.Service.Basic

/-! One evaluation: what becomes of the link, and what it leaves alone. -/
namespace ScoreRelay

namespace Link

variable {ω : Type} {b : Binder ω} {e : Endpoint} {l : Link ω} {wanted : Option Endpoint}

/-- The last call of the binder asked for a bind to the endpoint, in vain. -/
def Missed (e : Endpoint) (l : Link ω) : Prop :=
  ∃ n v, l.calls.getLast? = some (.bind e n v) ∧ v ≠ .accepted

/-- Nothing is held if no endpoint is wanted; else the endpoint is held, or was missed. -/
def Follows (wanted : Option Endpoint) (l : Link ω) : Prop :=
  match wanted with
  | none => l.state = .unbound
  | some e => l.state.endpoint = some e ∨ l.state = .unbound ∧ l.Missed e

theorem follows_request (hu : l.state = .unbound) : (request b e l).2.Follows (some e) := by
  by_cases hv : (answer b e l).verdict = .accepted
  · left
    simp [request_state, hv, LinkState.endpoint]
  · right
    refine ⟨by simp [request_state, hv, hu], l.session + 1, (answer b e l).verdict, ?_, hv⟩
    rw [request_calls, List.getLast?_append]
    simp

/-- What is followed depends on the endpoint held and on the calls alone. -/
theorem follows_congr {ω' : Type} {l' : Link ω'} (hs : l'.state.endpoint = l.state.endpoint)
    (hc : l'.calls = l.calls) (h : l.Follows wanted) : l'.Follows wanted := by
  simp only [Follows, Missed, ← LinkState.endpoint_eq_none_iff, hs, hc] at h ⊢
  exact h

theorem endpoint_of_follows (h : l.Follows wanted) (hs : l.state.endpoint = some e) :
    wanted = some e := by
  cases wanted with
  | none => simp [show l.state = .unbound from h, LinkState.endpoint] at hs
  | some e' =>
    rcases h with h | ⟨h, -⟩
    · rw [← h, hs]
    · simp [h, LinkState.endpoint] at hs

end Link

/-- Where the scorer in charge is reached. -/
def Lineup.endpoint (l : Lineup) : Option Endpoint := l.active.bind Scorer.endpoint

namespace Service

variable {κ ω : Type} {p : Ports κ ω} {s : Service κ ω} {l : Lineup} {t : Trigger} {e : Endpoint}
  {scorer : Option Scorer}

@[simp] theorem tell_state {sets : List (ListenerSet κ)}
    {act : Registration κ → Registry κ × ω → Delivery × (Registry κ × ω)} :
    (s.tell sets act).link.state = s.link.state := rfl

@[simp] theorem release_state : (release p s).link.state = .unbound := by
  simp [release, clearScores]

@[simp] theorem release_calls :
    (release p s).link.calls = (s.link.disconnect p.binder).2.calls := rfl

@[simp] theorem release_monitors : (release p s).monitors = s.monitors := rfl

/-- A crash of the binder goes through to whoever asked; all else does not. -/
def passed : ConnectResult → Outcome Unit
  | .crashed => .crashed
  | .bindRequested | .alreadyBound | .failed _ => .done ()

theorem bindTo_of_none (h : scorer.bind Scorer.endpoint = none) :
    bindTo p scorer s = (.done (), release p s) := by
  simp [bindTo, h]

theorem bindTo_of_held (h : scorer.bind Scorer.endpoint = some e)
    (hs : s.link.state.endpoint = some e) : bindTo p scorer s = (.done (), s) := by
  simp [bindTo, h, hs, Link.connect_of_held hs]

theorem bindTo_of_unbound (h : scorer.bind Scorer.endpoint = some e)
    (hs : s.link.state = .unbound) : bindTo p scorer s =
      (passed (Link.request p.binder e s.link).1,
        { s with link := (Link.request p.binder e s.link).2 }) := by
  have hn : s.link.state.endpoint = none := by simpa using hs
  have hc : s.link.connect p.binder e = Link.request p.binder e s.link := by
    rw [Link.connect_of_not_held (by simp [hn]), Link.disconnect_of_unbound hs]
  simp only [bindTo, h, hn, hc]
  cases hr : (Link.request p.binder e s.link).1 <;> split <;> simp_all [passed]

/-- An endpoint that is not wanted any more is given up, as if nothing were wanted, and then the way is
free for the bind. -/
theorem bindTo_of_other {held : Endpoint} (h : scorer.bind Scorer.endpoint = some e)
    (hs : s.link.state.endpoint = some held) (hne : held ≠ e) :
    bindTo p scorer s = bindTo p scorer (release p s) := by
  have hn : (release p s).link.state.endpoint = none := by simp
  simp only [bindTo, h, hs, hne, if_false, hn]

/-- All that an evaluation can come to: nothing is wanted, or the endpoint is held already, or it is asked
for, be it at once or in place of another. -/
theorem bindTo_cases (p : Ports κ ω) (scorer : Option Scorer) (s : Service κ ω) :
    (scorer.bind Scorer.endpoint = none ∧ (bindTo p scorer s).2 = release p s) ∨
      (∃ e, scorer.bind Scorer.endpoint = some e ∧ s.link.state.endpoint = some e ∧
        (bindTo p scorer s).2 = s) ∨
      (∃ e, scorer.bind Scorer.endpoint = some e ∧ s.link.state = .unbound ∧
        (bindTo p scorer s).2 = { s with link := (Link.request p.binder e s.link).2 }) ∨
      ∃ e held, scorer.bind Scorer.endpoint = some e ∧ s.link.state.endpoint = some held ∧
        held ≠ e ∧ (bindTo p scorer s).2 =
          { release p s with link := (Link.request p.binder e (release p s).link).2 } := by
  cases h : scorer.bind Scorer.endpoint with
  | none => exact Or.inl ⟨rfl, by rw [bindTo_of_none h]⟩
  | some e =>
    right
    cases hs : s.link.state.endpoint with
    | none =>
      have hu : s.link.state = .unbound := by simpa using hs
      exact Or.inr (Or.inl ⟨e, rfl, hu, by rw [bindTo_of_unbound h hu]⟩)
    | some held =>
      by_cases he : held = e
      · subst he
        exact Or.inl ⟨held, rfl, rfl, by rw [bindTo_of_held h hs]⟩
      · refine Or.inr (Or.inr ⟨e, held, rfl, rfl, he, ?_⟩)
        rw [bindTo_of_other h hs he, bindTo_of_unbound h release_state]

/-- What every call to one of the caches keeps of the link, telling them something keeps. -/
theorem tell_keeps {P : Link ω → Prop} {sets : List (ListenerSet κ)}
    {act : Registration κ → Registry κ × ω → Delivery × (Registry κ × ω)}
    (hk : ∀ reg x, P { s.link with world := x.2 } → P { s.link with world := (act reg x).2.2 })
    (h : P s.link) : P (s.tell sets act).link :=
  broadcast_keeps (P := fun x : Registry κ × ω => P { s.link with world := x.2 }) hk sets h

/-- What a broadcast keeps, handing out scores keeps. -/
theorem updateScores_keeps {P : Service κ ω → Prop}
    (hp : ∀ s sets batch, P s → P (s.tell sets fun reg => p.caches.update reg batch))
    (networks : List ScoredNetwork) (h : P s) : P (s.updateScores p networks) := by
  have ht : ∀ s t, P s → P (updateType p networks s t) := by
    intro s t h
    unfold updateType
    split
    · exact h
    · split
      · exact hp _ _ _ h
      · exact h
  exact ht _ _ (ht _ _ (ht _ _ h))

/-- A property of links that no call of the ports touches: neither what a cache does to the world when it is
called, nor a release, nor a request. -/
structure Stable (p : Ports κ ω) (P : Link ω → Prop) : Prop where
  update : ∀ k reg batch r, P k →
    P { k with world := (p.caches.update reg batch (r, k.world)).2.2 }
  clear : ∀ k reg r, P k → P { k with world := (p.caches.clear reg (r, k.world)).2.2 }
  disconnect : ∀ k, P k → P (k.disconnect p.binder).2
  request : ∀ k e, P k → P (Link.request p.binder e k).2

/-- The log only grows. -/
theorem stable_extends (p : Ports κ ω) (calls : List BinderCall) :
    Stable p fun k => calls <+: k.calls where
  update _ _ _ _ h := h
  clear _ _ _ h := h
  disconnect _ h := h.trans Link.prefix_disconnect
  request _ _ h := h.trans Link.prefix_request

section Stable

variable {P : Link ω → Prop} (hp : Stable p P)
include hp

theorem Stable.clearScores (h : P s.link) : P (clearScores p s).link :=
  tell_keeps (fun reg x h => hp.clear _ reg x.1 h) h

theorem Stable.updateScores (networks : List ScoredNetwork) (h : P s.link) :
    P (s.updateScores p networks).link :=
  updateScores_keeps (P := fun s => P s.link)
    (fun _ _ batch h => tell_keeps (fun reg x h => hp.update _ reg batch x.1 h) h) networks h

theorem Stable.release (h : P s.link) : P (release p s).link :=
  hp.clearScores (hp.disconnect _ h)

theorem Stable.bindTo (h : P s.link) : P (bindTo p scorer s).2.link := by
  rcases bindTo_cases p scorer s with
    ⟨-, hb⟩ | ⟨e, -, -, hb⟩ | ⟨e, -, -, hb⟩ | ⟨e, held, -, -, -, hb⟩ <;> rw [hb]
  · exact hp.release h
  · exact h
  · exact hp.request _ _ h
  · exact hp.request _ _ (hp.release h)

end Stable

theorem bindTo_follows : (bindTo p scorer s).2.link.Follows (scorer.bind Scorer.endpoint) := by
  rcases bindTo_cases p scorer s with
    ⟨he, hb⟩ | ⟨e, he, hs, hb⟩ | ⟨e, he, hu, hb⟩ | ⟨e, held, he, -, -, hb⟩ <;> rw [hb, he]
  · exact release_state
  · exact Or.inl hs
  · exact Link.follows_request hu
  · exact Link.follows_request release_state

@[simp] theorem bindTo_monitors : (bindTo p scorer s).2.monitors = s.monitors := by
  rcases bindTo_cases p scorer s with
    ⟨-, hb⟩ | ⟨e, -, -, hb⟩ | ⟨e, -, -, hb⟩ | ⟨e, held, -, -, -, hb⟩ <;> rw [hb]
  · rfl
  · rfl

@[simp] theorem systemReady_link : (s.systemReady l).link = s.link := by
  unfold systemReady
  split <;> rfl

@[simp] theorem systemReady_registry : (s.systemReady l).registry = s.registry := by
  unfold systemReady
  split <;> rfl

theorem packageChanged_of_stranger (h : t.package ∉ l.candidates) :
    packageChanged p l t s = (.done (), s) := by
  simp [packageChanged, h]

/-- A change of a candidate is an evaluation, for which the scorer in charge may be released first. -/
theorem packageChanged_of_candidate (h : t.package ∈ l.candidates) :
    packageChanged p l t s = bindTo p l.active s ∨
      packageChanged p l t s = bindTo p l.active (release p s) := by
  simp only [packageChanged, List.contains_iff_mem, h, if_true]
  cases l.active with
  | none => exact Or.inl (bindTo_of_none rfl).symm
  | some scorer =>
    dsimp only
    split
    · exact Or.inr rfl
    · exact Or.inl rfl

/-- New, gone or replaced code of the scorer in charge drops the link to it. -/
theorem packageChanged_of_forced {scorer : Scorer} (hc : t.package ∈ l.candidates)
    (ha : l.active = some scorer) (hf : t.force = true) (hp : scorer.package = t.package) :
    packageChanged p l t s = bindTo p l.active (release p s) := by
  simp [packageChanged, hc, ha, hf, hp]

theorem packageChanged_of_other {scorer : Scorer} (hc : t.package ∈ l.candidates)
    (ha : l.active = some scorer) (hp : scorer.package ≠ t.package) :
    packageChanged p l t s = bindTo p l.active s := by
  simp [packageChanged, hc, ha, hp]

theorem Stable.packageChanged {P : Link ω → Prop} (hp : Stable p P) (h : P s.link) :
    P (packageChanged p l t s).2.link := by
  by_cases ht : t.package ∈ l.candidates
  · rcases packageChanged_of_candidate (p := p) (s := s) ht with he | he <;> rw [he]
    · exact hp.bindTo h
    · exact hp.bindTo (hp.release h)
  · rwa [packageChanged_of_stranger ht]

theorem packageChanged_follows (h : t.package ∈ l.candidates) :
    (packageChanged p l t s).2.link.Follows l.endpoint := by
  rcases packageChanged_of_candidate (p := p) (s := s) h with he | he <;> rw [he]
  · exact bindTo_follows
  · exact bindTo_follows

@[simp] theorem packageChanged_monitors : (packageChanged p l t s).2.monitors = s.monitors := by
  by_cases h : t.package ∈ l.candidates
  · rcases packageChanged_of_candidate (p := p) (s := s) h with he | he <;> rw [he] <;> simp
  · rw [packageChanged_of_stranger h]

theorem packageEvent_of_unwatched {ev : PackageEvent} (h : s.monitors.packages = none) :
    packageEvent p l ev s = (.done 0, s) := by
  simp [packageEvent, Monitors.dispatchEvent, h]

theorem packageEvent_of_watched {ev : PackageEvent} {m : PackageMonitor Unit}
    (h : s.monitors.packages = some m) : packageEvent p l ev s =
      PackageMonitor.callAll (packageChanged p l) (m.relevant ev) 0 s := by
  simp [packageEvent, Monitors.dispatchEvent, PackageMonitor.handle, h]

/-- What the evaluations for watched triggers keep, the event keeps. -/
theorem packageEvent_keeps {P : Service κ ω → Prop} {ev : PackageEvent}
    (hk : ∀ t ∈ ev.triggers, t.package ∈ s.monitors.watched →
      ∀ s', P s' → P (packageChanged p l t s').2) (h : P s) : P (packageEvent p l ev s).2 := by
  cases hm : s.monitors.packages with
  | none => rwa [packageEvent_of_unwatched hm]
  | some m =>
    rw [packageEvent_of_watched hm]
    refine callAll_keeps ?_ _ h
    intro t ht
    simp only [PackageMonitor.relevant, PackageMonitor.watches, List.mem_filter,
      List.contains_iff_mem] at ht
    exact hk t ht.1 (by simpa [Monitors.watched, hm] using ht.2)

@[simp] theorem packageEvent_monitors (ev : PackageEvent) :
    (packageEvent p l ev s).2.monitors = s.monitors :=
  packageEvent_keeps (P := fun s' => s'.monitors = s.monitors)
    (fun _ _ _ _ h => packageChanged_monitors.trans h) rfl

theorem Stable.packageEvent {P : Link ω → Prop} (hp : Stable p P) (h : P s.link)
    (ev : PackageEvent) : P (packageEvent p l ev s).2.link :=
  packageEvent_keeps (P := fun s' => P s'.link) (fun _ _ _ _ h => hp.packageChanged h) h

/-- The setting is looked at only if it is watched. -/
theorem settingEvent_eq : (settingEvent p l s).2 =
    if s.monitors.observer.isSome then (evaluate p l s).2 else s := by
  unfold settingEvent Monitors.dispatchSetting observe
  cases s.monitors.observer with
  | none => rfl
  | some target =>
    simp only [if_true, Option.isSome_some]
    split <;> rename_i heq <;> rw [heq]

theorem Stable.settingEvent {P : Link ω → Prop} (hp : Stable p P) (h : P s.link) :
    P (settingEvent p l s).2.link := by
  rw [settingEvent_eq]
  split
  · exact hp.bindTo h
  · exact h

end Service

end ScoreRelay
