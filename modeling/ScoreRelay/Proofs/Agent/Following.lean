import Mathlib.Logic.ExistsUnique
import ScoreRelay.Proofs.Agent.Seen

/-! The link of an agent at work follows its roster. Whatever can put another scorer in charge also comes
to an evaluation, since the candidates never change and each of them is watched. -/
namespace ScoreRelay

namespace Service

variable {κ ω : Type} {p : Ports κ ω} {s : Service κ ω} {l : Lineup}

theorem userUnlocked_monitors (l : Lineup) : (s.userUnlocked p l).2.monitors =
    (s.monitors.registerPackages l.candidates ()).2 := by
  simp [userUnlocked, evaluate]

theorem settingEvent_monitors : (s.settingEvent p l).2.monitors = s.monitors := by
  rw [settingEvent_eq]
  split
  · simp [evaluate]
  · rfl

end Service

namespace Agent

variable {σ : Type} {b : Binder σ} {a : Agent σ} {q : Request}

/-- The monitors that watch some candidates and the setting, if there is any candidate. -/
def watching (candidates : List String) : Monitors Unit :=
  if candidates.isEmpty then {} else ⟨some ⟨candidates, ()⟩, some ()⟩

theorem watching_nil : watching [] = {} := rfl

theorem watching_of_ne {candidates : List String} (h : candidates ≠ []) :
    watching candidates = ⟨some ⟨candidates, ()⟩, some ()⟩ := by
  simp [watching, h]

theorem registerPackages_watching (candidates : List String) :
    ((watching candidates).registerPackages candidates ()).2 = watching candidates := by
  by_cases h : candidates = []
  · subst h
    rfl
  · simp [watching_of_ne h, Monitors.registerPackages, h]

/-- All candidates are watched, and the link follows the scorer in charge. -/
structure Following (a : Agent σ) : Prop where
  monitors : a.service.monitors = watching a.roster.candidates
  link : a.service.link.Follows a.lineup.endpoint

theorem following_started (c : Config) (name : Nat → String) (w : σ) :
    Following (started b c name w) where
  monitors := by
    change ((fresh c name w).service.systemReady (fresh c name w).lineup).systemRunning
      (ports b) (fresh c name w).lineup |>.2.monitors = watching (Roster.ofConfig c).candidates
    by_cases hc : (Roster.ofConfig c).candidates = []
    · simp [Service.systemRunning, Service.evaluate, Service.systemReady, fresh, lineup,
        Roster.lineup, hc, watching_nil]
    · simp [Service.systemRunning, Service.evaluate, Service.systemReady, fresh, lineup,
        Roster.lineup, hc, watching_of_ne hc, Monitors.registerPackages, Monitors.registerObserver]
  link := Service.bindTo_follows

theorem effect_monitors (h : a.service.monitors = watching a.roster.candidates) :
    (effect b q (q.amend a.roster).lineup a.service).monitors = watching a.roster.candidates := by
  cases q with
  | packageEvent e => exact (Service.packageEvent_monitors e).trans h
  | settingChanged c => exact Service.settingEvent_monitors.trans h
  | userUnlocked u =>
    simp only [effect, Service.userUnlocked_monitors, Roster.lineup, Roster.candidates_amend, h]
    exact registerPackages_watching _
  | scoresUpdate u =>
    simp only [effect]
    split
    · exact Service.updateScores_keeps (P := fun s => s.monitors = _) (fun _ _ _ hs => hs) _ h
    · exact h
  | scoresClear c =>
    simp only [effect]
    split <;> exact h
  | _ => exact h

/-- An event that concerns no candidate says nothing that the roster keeps. -/
theorem amend_of_irrelevant {r : Roster} {e : PackageEvent}
    (h : PackageMonitor.relevant ⟨r.candidates, ()⟩ e = []) :
    (Request.packageEvent e).amend r = r := by
  cases e with
  | added p | removed p | updateFinished p =>
    refine Roster.setInstalled_of_stranger ?_ _
    simpa [PackageMonitor.relevant, PackageEvent.triggers, PackageMonitor.watches] using h
  | modified p | forceStopped ps executed => rfl

theorem packageEvent_follows {e : PackageEvent} (h : a.Following) :
    let r := (Request.packageEvent e).amend a.roster
    (a.service.packageEvent (ports b) r.lineup e).2.link.Follows r.lineup.endpoint := by
  intro r
  have hc : r.candidates = a.roster.candidates := Roster.candidates_amend
  by_cases hn : a.roster.candidates = []
  · have hm : a.service.monitors.packages = none := by rw [h.monitors, hn, watching_nil]
    have hl := h.link
    rw [Service.packageEvent_of_unwatched hm]
    simp only [lineup, Roster.lineup, Lineup.endpoint, Roster.active_of_no_candidate hn,
      Roster.active_of_no_candidate (hc.trans hn)] at hl ⊢
    exact hl
  · have hm : a.service.monitors.packages = some ⟨a.roster.candidates, ()⟩ := by
      rw [h.monitors, watching_of_ne hn]
    rw [Service.packageEvent_of_watched hm]
    have hcall : ∀ t ∈ PackageMonitor.relevant ⟨a.roster.candidates, ()⟩ e,
        ∀ s : Service Nat (World σ),
          (Service.packageChanged (ports b) r.lineup t s).2.link.Follows r.lineup.endpoint := by
      intro t ht s
      apply Service.packageChanged_follows
      simpa [Roster.lineup, hc, PackageMonitor.watches] using (List.mem_filter.mp ht).2
    obtain ⟨he, hs⟩ | hf := callAll_establishes
      (P := fun s : Service Nat (World σ) => s.link.Follows r.lineup.endpoint) hcall 0 a.service
    · rw [hs, show r = a.roster from amend_of_irrelevant he]
      exact h.link
    · exact hf

theorem settingEvent_follows {c : SettingChange} (h : a.Following) :
    let r := (Request.settingChanged c).amend a.roster
    (a.service.settingEvent (ports b) r.lineup).2.link.Follows r.lineup.endpoint := by
  intro r
  rw [Service.settingEvent_eq, h.monitors]
  by_cases hn : a.roster.candidates = []
  · have hl := h.link
    have hr : r.active = none := Roster.active_of_no_candidate (Roster.candidates_amend.trans hn)
    simp only [lineup, Roster.lineup, Lineup.endpoint, Roster.active_of_no_candidate hn] at hl
    simpa [hn, watching_nil, Roster.lineup, Lineup.endpoint, hr] using hl
  · simp only [watching_of_ne hn, Option.isSome_some, if_true]
    exact Service.bindTo_follows

theorem following_perform (h : a.Following) (q : Request) :
    Following ⟨q.amend a.roster, effect b q (q.amend a.roster).lineup a.service⟩ where
  monitors := (effect_monitors h.monitors).trans (by rw [Roster.candidates_amend])
  link := by
    cases q with
    | packageEvent e => exact packageEvent_follows h
    | settingChanged c => exact settingEvent_follows h
    | userUnlocked u => exact Service.bindTo_follows
    | scoresUpdate u =>
      simp only [effect]
      split
      · exact Service.updateScores_keeps
          (P := fun s => s.link.Follows a.lineup.endpoint) (fun _ _ _ hs => hs) _ h.link
      · exact h.link
    | scoresClear c =>
      simp only [effect]
      split
      · exact Link.follows_congr rfl rfl h.link
      · exact h.link
    | _ => exact Link.follows_congr rfl rfl h.link

theorem following_step (h : a.Following) (x : Input) : (step b a x).Following := by
  cases hx : x.request? with
  | some q =>
    rw [step_of_request hx]
    exact following_perform h q
  | none =>
    obtain ⟨state, queue, he, hs⟩ := step_of_no_request (b := b) (a := a) hx
    rw [hs]
    exact ⟨h.monitors, Link.follows_congr he rfl h.link⟩

theorem following_run (h : a.Following) (xs : List Input) : (run b a xs).Following :=
  run_keeps (P := Following) (fun _ x h => following_step h x) h xs

/-- The endpoint that was missed is the last thing the binder has heard of, and it did not take it. -/
theorem heard_of_missed {ω : Type} {k : Link (ω × List BinderNote)} {e : Endpoint} (hh : k.Heard)
    (hm : k.Missed e) : ∃ n answer, k.world.2.getLast? = some (.bind e n answer) ∧
      answer.verdict ≠ .accepted := by
  obtain ⟨n, v, hlast, hv⟩ := hm
  rw [hh, Link.heard, List.getLast?_map] at hlast
  obtain ⟨note, hnote, hcall⟩ := Option.map_eq_some_iff.mp hlast
  cases note with
  | bind e' n' answer =>
    cases hcall
    exact ⟨n, answer, hnote, hv⟩
  | unbind e' failure => cases hcall

section Standing

variable {a : Agent (σ × List BinderNote)}

/-- How the link of an agent can stand towards its roster. -/
inductive Standing where
  /-- Nobody is in charge and nothing is held. -/
  | idle
  /-- The endpoint of the scorer in charge is held. -/
  | held
  /-- Nothing is held although somebody is in charge: the binder was last asked for that bind, in vain. -/
  | missed

/-- What the binder was asked for and what it answered is read off its own notes. -/
def Standing.Holds : Standing → Agent (σ × List BinderNote) → Prop
  | .idle, a => a.roster.active = none ∧ a.service.link.state = .unbound
  | .held, a => ∃ s e, a.roster.active = some s ∧ s.endpoint = some e ∧
      a.service.link.state.endpoint = some e
  | .missed, a => ∃ s e n answer, a.roster.active = some s ∧ s.endpoint = some e ∧
      a.service.link.state = .unbound ∧
      a.world.binder.2.getLast? = some (.bind e n answer) ∧ answer.verdict ≠ .accepted

/-- Who is in charge and whether anything is held leave no choice. -/
theorem Standing.eq_of_holds {k : Standing} (h : k.Holds a) : k =
    if a.roster.active = none then .idle
    else if a.service.link.state = .unbound then .missed else .held := by
  cases k with
  | idle => simp [h.1]
  | held =>
    obtain ⟨s, e, hs, -, he⟩ := h
    have hu : a.service.link.state ≠ .unbound := by
      intro hu
      simp [hu, LinkState.endpoint] at he
    simp [hs, hu]
  | missed =>
    obtain ⟨s, e, n, answer, hs, -, hu, -, -⟩ := h
    simp [hs, hu]

theorem standing_of_following (h : a.Following) (hh : a.link.Heard) :
    ∃! k : Standing, k.Holds a := by
  have hk : ∃ k : Standing, k.Holds a := by
    have hl := h.link
    cases ha : a.roster.active with
    | none =>
      simp only [lineup, Roster.lineup, Lineup.endpoint, ha, Option.bind_none] at hl
      exact ⟨.idle, ha, hl⟩
    | some s =>
      obtain ⟨e, he, -⟩ := Roster.endpoint_of_active ha
      simp only [lineup, Roster.lineup, Lineup.endpoint, ha, Option.bind_some, he] at hl
      rcases hl with hl | ⟨hu, hm⟩
      · exact ⟨.held, s, e, ha, he, hl⟩
      · obtain ⟨n, answer, hlast, hv⟩ := heard_of_missed hh hm
        exact ⟨.missed, s, e, n, answer, ha, he, hu, hlast, hv⟩
  obtain ⟨k, hk⟩ := hk
  exact ⟨k, hk, fun k' hk' => (Standing.eq_of_holds hk').trans (Standing.eq_of_holds hk).symm⟩

end Standing

/-- After whatever has reached an agent, a binder crash included, exactly one of three holds: nobody is
in charge and nothing is held; the endpoint of the scorer in charge is held; it is not, and the binder was
asked for it last, in vain. So nobody but the scorer in charge is ever held. The binder notes what it hears
and what it answers, which changes nothing about the run. -/
theorem link_follows_roster (b : Binder σ) (c : Config) (name : Nat → String) (w : σ)
    (xs : List Input) :
    let a := run b.noting (started b.noting c name (w, [])) xs
    (∃! k : Standing, k.Holds a) ∧
      (∀ e, a.service.link.state.endpoint = some e →
        a.roster.active.bind Scorer.endpoint = some e) ∧
      a.seen Prod.fst = run b (started b c name w) xs := by
  intro a
  have h : a.Following := following_run (following_started c name (w, [])) xs
  have hp := Link.lasting_heard b
  have hh : a.link.Heard := lasting_run hp (lasting_started hp (w := (w, [])) rfl c name) xs
  refine ⟨standing_of_following h hh, fun e he => Link.endpoint_of_follows h.link he, ?_⟩
  rw [← run_seen b.through_noting, ← started_seen b.through_noting]

end Agent

end ScoreRelay
