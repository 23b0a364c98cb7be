import ScoreRelay.Proofs.Agent.Authority

/-! When an agent drops its scores. As long as its binder takes every bind, the roster and the request alone
say what becomes of each cache; the link has no say in it. -/
namespace ScoreRelay

/-- The packages whose code an event puts in place anew. -/
def PackageEvent.renewed : PackageEvent → List String
  | .added p | .updateFinished p => [p]
  | .forceStopped ps executed => if executed then ps else []
  | .removed _ | .modified _ => []

namespace Request

def renewed : Request → List String
  | .packageEvent e => e.renewed
  | _ => []

/-- A clear is asked for, by a caller that may. -/
def clears (l : Lineup) : Request → Bool
  | .scoresClear c => l.isActive c.caller.uid || c.caller.holds .broadcastNetworkPrivileged
  | _ => false

end Request

/-- With this request all scores given before are void: a clear is asked for; or whoever was in charge is
so no more; or the scorer that is in charge now has been put in place anew. -/
def ClearPoint (r : Roster) (q : Request) : Prop :=
  q.clears r.lineup = true ∨ r.active ≠ none ∧ (q.amend r).active ≠ r.active ∨
    ∃ s ∈ (q.amend r).active, s.package ∈ q.renewed

instance (r : Roster) (q : Request) : Decidable (ClearPoint r q) :=
  inferInstanceAs (Decidable (_ ∨ _ ∨ _))

/-- No bind was refused, and none crashed. -/
def Link.AllAccepted {ω : Type} (l : Link ω) : Prop :=
  ∀ e n v, .bind e n v ∈ l.calls → v = .accepted

namespace Service

variable {κ ω : Type} {p : Ports κ ω} {s : Service κ ω} {l : Lineup} {scorer : Scorer} {e : Endpoint}

/-- With the right endpoint held, only a trigger that forces its release has any effect. -/
theorem packageChanged_of_held {t : Trigger} (ha : l.active = some scorer)
    (he : scorer.endpoint = some e) (hs : s.link.state.endpoint = some e)
    (ht : t.force = false ∨ scorer.package ≠ t.package) :
    packageChanged p l t s = (.done (), s) := by
  by_cases hc : t.package ∈ l.candidates
  · have hn : (t.force && scorer.package == t.package) = false := by
      rcases ht with ht | ht <;> simp [ht]
    have hb : bindTo p (some scorer) s = (.done (), s) := bindTo_of_held he hs
    simp [packageChanged, hc, ha, hn, hb]
  · exact packageChanged_of_stranger hc

theorem packageEvent_of_held {ev : PackageEvent} (ha : l.active = some scorer)
    (he : scorer.endpoint = some e) (hs : s.link.state.endpoint = some e)
    (ht : ∀ t ∈ ev.triggers, t.force = false ∨ scorer.package ≠ t.package) :
    (packageEvent p l ev s).2 = s := by
  refine packageEvent_keeps (P := (· = s)) ?_ rfl
  intro t hm _ s' hs'
  rw [hs', packageChanged_of_held ha he hs (ht t hm)]

theorem settingEvent_of_held (ha : l.active = some scorer) (he : scorer.endpoint = some e)
    (hs : s.link.state.endpoint = some e) : (settingEvent p l s).2 = s := by
  have hb : bindTo p (some scorer) s = (.done (), s) := bindTo_of_held he hs
  simp only [settingEvent_eq, evaluate, ha, hb, ite_self]

theorem userUnlocked_of_held (ha : l.active = some scorer) (he : scorer.endpoint = some e)
    (hs : s.link.state.endpoint = some e) :
    (userUnlocked p l s).2 =
      { s with monitors := (s.monitors.registerPackages l.candidates ()).2 } := by
  have hb : bindTo p (some scorer)
      { s with monitors := (s.monitors.registerPackages l.candidates ()).2 } = (.done (), _) :=
    bindTo_of_held he hs
  simp only [userUnlocked, evaluate, ha, hb]

end Service

namespace Agent

variable {σ : Type} {b : Binder σ} {a : Agent σ} {x : Input} {xs : List Input} {q : Request}
  {s : Scorer} {e : Endpoint} {ev : PackageEvent}
  {sv sv' : Service Nat (World σ)} {f : MemoryCache → MemoryCache}

section Log

theorem allAccepted_of_step (h : (step b a x).service.link.AllAccepted) :
    a.service.link.AllAccepted :=
  have hp := lasting_step (Link.lasting_extends b a.link.calls) List.prefix_rfl x
  fun e n v hm => h e n v (hp.subset hm)

/-- A binder that takes every bind, as long as its world is as it was to begin with, refuses none. -/
theorem allAccepted_run {I : σ → Prop} {w : σ} (hw : I w)
    (hb : ∀ e n w, I w → (b.bind e n w).1.verdict = .accepted ∧ I (b.bind e n w).2)
    (hu : ∀ e w, I w → I (b.unbind e w).2) (c : Config) (name : Nat → String) (xs : List Input) :
    (run b (started b c name w) xs).service.link.AllAccepted := by
  have hp : Link.Lasting b fun k => I k.world ∧ k.AllAccepted :=
    { disconnect := by
        rintro k ⟨hi, ha⟩
        rcases Link.disconnect_cases b k with ⟨-, hd⟩ | ⟨e, -, hd⟩ <;> rw [hd]
        · exact ⟨hi, ha⟩
        · exact ⟨hu e _ hi, fun e' n v hm => ha e' n v (by simpa using hm)⟩
      request := by
        rintro k e ⟨hi, ha⟩
        refine ⟨Link.request_world ▸ (hb e _ _ hi).2, fun e' n v hm => ?_⟩
        rw [Link.request_calls, List.mem_append, List.mem_singleton] at hm
        rcases hm with hm | hm
        · exact ha e' n v hm
        · cases hm
          exact (hb e _ _ hi).1
      reported := fun _ _ _ h => h }
  have hstart : (fun k : Link σ => I k.world ∧ k.AllAccepted) { world := w } :=
    ⟨hw, fun _ _ _ hm => absurd hm List.not_mem_nil⟩
  exact (lasting_run hp (lasting_started hp hstart c name) xs).2

end Log

/-- What a cache takes from a request. -/
def taken (l : Lineup) : Request → MemoryCache → MemoryCache
  | .scoresUpdate u, m => if l.isActive u.caller.uid then delivered u.networks m else m
  | .networkCurrent n, m => m.setCurrent (n.network.filter (·.networkType = m.networkType))
  | .networkScan n, m => m.setScan (n.networks.filter (·.networkType = m.networkType))
  | _, m => m

theorem taken_of_active {l : Lineup} {u : ScoresUpdate} (h : l.isActive u.caller.uid = true) :
    taken l (.scoresUpdate u) = delivered u.networks :=
  funext fun _ => if_pos h

theorem taken_of_other {l : Lineup} {u : ScoresUpdate} (h : ¬ l.isActive u.caller.uid = true) :
    taken l (.scoresUpdate u) = id :=
  funext fun _ => if_neg h

/-- What a request makes of a cache, given the roster before. -/
def cacheAfter (r : Roster) (q : Request) (m : MemoryCache) : MemoryCache :=
  if ClearPoint r q then m.clear else taken r.lineup q m

theorem not_clearPoint {r : Roster} (hc : q.clears r.lineup = false) (ha : q.amend r = r)
    (hn : q.renewed = []) : ¬ ClearPoint r q := by
  simp [ClearPoint, hc, ha, hn]

theorem cacheAfter_of_clearPoint {r : Roster} (h : ClearPoint r q) :
    cacheAfter r q = MemoryCache.clear :=
  funext fun _ => if_pos h

theorem cacheAfter_of_quiet {r : Roster} (h : ¬ ClearPoint r q) :
    cacheAfter r q = taken r.lineup q := by
  funext m
  rw [cacheAfter, if_neg h]

/-- A bind that was taken is held. -/
theorem held_of_allAccepted (hf : a.Following) (hv : a.service.link.AllAccepted)
    (hs : a.roster.active = some s) :
    ∃ e, s.endpoint = some e ∧ a.service.link.state.endpoint = some e := by
  obtain ⟨e, he, -⟩ := Roster.endpoint_of_active hs
  have hl := hf.link
  simp only [lineup, Roster.lineup, Lineup.endpoint, hs, Option.bind_some, he] at hl
  rcases hl with hl | ⟨-, n, v, hlast, hne⟩
  · exact ⟨e, he, hl⟩
  · exact absurd (hv e n v (List.mem_of_getLast? hlast)) hne

theorem clear_of_empty {m : MemoryCache} (h : m.scores = []) : m.clear = m := by
  rw [MemoryCache.clear, ← h]

/-- Where there are no scores, to drop them or not is the same. -/
theorem recached_of_bare (hw : Whole sv sv') (h : ∀ m ∈ sv.link.world.caches, m.scores = [])
    (hf : ∀ m, f m = m ∨ f m = m.clear) : Recached f sv sv' := by
  have hfm : ∀ m ∈ sv.link.world.caches, f m = m := fun m hm =>
    (hf m).elim id fun he => he.trans (clear_of_empty (h m hm))
  have hcm : ∀ m ∈ sv.link.world.caches, m.clear = m := fun m hm => clear_of_empty (h m hm)
  rcases hw with ⟨hr, hc⟩ | ⟨hr, hc⟩
  · exact ⟨hr, hc.trans (List.map_congr_left fun m hm => (hfm m hm).symm)⟩
  · exact ⟨hr, hc.trans (List.map_congr_left fun m hm => (hcm m hm).trans (hfm m hm).symm)⟩

theorem recached_clear_of_empty (hw : Whole sv sv')
    (h : ∀ m ∈ sv'.link.world.caches, m.scores = []) : Recached MemoryCache.clear sv sv' := by
  rcases hw with hw | hw
  · have hc : sv'.link.world.caches = sv.link.world.caches := by rw [hw.2, List.map_id]
    exact recached_of_bare (Or.inl hw) (hc ▸ h) fun m => Or.inr rfl
  · exact hw

theorem forced_of_renewed {package : String} (h : package ∈ ev.renewed) :
    ⟨package, true⟩ ∈ ev.triggers := by
  cases ev with
  | forceStopped ps executed => cases executed <;> simp_all [PackageEvent.triggers, PackageEvent.renewed]
  | _ => simp_all [PackageEvent.triggers, PackageEvent.renewed]

/-- Among the triggers of an event that neither renews nor removes a scorer none forces its release. -/
theorem unforced_of_not_renewed {r : Roster} {t : Trigger} (ht : t ∈ ev.triggers)
    (hs : ((Request.packageEvent ev).amend r).active = some s) (hn : s.package ∉ ev.renewed) :
    t.force = false ∨ s.package ≠ t.package := by
  cases ev with
  | removed p =>
    have hp := Roster.package_ne_of_removed hs
    simp_all [PackageEvent.triggers]
  | forceStopped ps executed =>
    cases executed with
    | true =>
      obtain ⟨p, hp, rfl⟩ := List.mem_map.mp (show t ∈ ps.map (⟨·, true⟩) from ht)
      exact Or.inr fun he => hn (show s.package ∈ ps from he ▸ hp)
    | false => simp [PackageEvent.triggers] at ht
  | _ => simp_all [PackageEvent.triggers, PackageEvent.renewed]

/-- The first trigger for a renewed scorer has all scores dropped, and whatever comes after it cannot bring
them back. -/
theorem recached_of_renewed (hf : a.Following) (ht : Tended a.service)
    (hs : a.roster.active = some s)
    (hst : ((Request.packageEvent ev).amend a.roster).active = some s) (he : s.endpoint = some e)
    (hheld : a.service.link.state.endpoint = some e) (hren : s.package ∈ ev.renewed) :
    Recached MemoryCache.clear a.service
      (a.service.packageEvent (ports b) ((Request.packageEvent ev).amend a.roster).lineup ev).2 := by
  have hp := Roster.package_mem_of_active hs
  have hm : a.service.monitors.packages = some ⟨a.roster.candidates, ()⟩ := by
    rw [hf.monitors, watching_of_ne (List.ne_nil_of_mem hp)]
  rw [Service.packageEvent_of_watched hm]
  set l := ((Request.packageEvent ev).amend a.roster).lineup with hl
  have hlc : s.package ∈ l.candidates := by simpa [hl, Roster.lineup] using hp
  have hforced {t : Trigger} (hf : t.force = true) (hpt : s.package = t.package) :
      Recached MemoryCache.clear a.service
        (Service.packageChanged (ports b) l t a.service).2 := by
    rw [Service.packageChanged_of_forced (hpt ▸ hlc) hst hf hpt]
    exact recached_bindTo_release ht.served
  refine callAll_reaches ?_ ⟨⟨s.package, true⟩, ?_, hforced rfl rfl⟩ ?_ 0
  · intro t _
    by_cases hu : t.force = false ∨ s.package ≠ t.package
    · exact Or.inl (Service.packageChanged_of_held hst he hheld hu)
    · simp only [not_or, Bool.not_eq_false, not_not] at hu
      exact Or.inr (hforced hu.1 hu.2)
  · exact List.mem_filter.mpr ⟨forced_of_renewed hren, by simpa [PackageMonitor.watches] using hp⟩
  · -- By now there is nothing left to drop, so a second release changes no cache.
    intro t _ s' hr
    rcases whole_packageChanged (b := b) (l := l) (served_recached ht.served hr fun _ => rfl) t
      with hw | hw
    · exact recached_trans hr hw
    · exact recached_trans hr hw

section Steps

variable (hf : a.Following) (ht : Tended a.service) (hv : a.service.link.AllAccepted)
  (hidle : a.roster.active = none → ∀ m ∈ a.caches, m.scores = [])

include hf ht hv hidle

/-- An evaluation drops the scores at a clear point, and only there, if that is so for a scorer that keeps
its place. -/
theorem recached_evaluation (hx : x.request? = some q)
    (hq : taken a.roster.lineup q = id) (hc : q.clears a.roster.lineup = false)
    (hw : Whole a.service (step b a x).service)
    (hstays : ∀ s e, a.roster.active = some s → (q.amend a.roster).active = some s →
      s.endpoint = some e → a.service.link.state.endpoint = some e →
        Recached (if s.package ∈ q.renewed then MemoryCache.clear else id) a.service
          (step b a x).service) :
    Recached (cacheAfter a.roster q) a.service (step b a x).service := by
  cases hs : a.roster.active with
  | none =>
    -- Whether or not the newcomer is a clear point, there are no scores it could drop.
    refine recached_of_bare hw (hidle hs) fun m => ?_
    rw [cacheAfter, hq]
    split
    · exact Or.inr rfl
    · exact Or.inl rfl
  | some s =>
    obtain ⟨e, he, hheld⟩ := held_of_allAccepted hf hv hs
    by_cases hst : (q.amend a.roster).active = some s
    · have hr := hstays s e hs hst he hheld
      by_cases hren : s.package ∈ q.renewed
      · have hp : ClearPoint a.roster q := Or.inr (Or.inr ⟨s, hst, hren⟩)
        rw [cacheAfter_of_clearPoint hp]
        rwa [if_pos hren] at hr
      · have hp : ¬ ClearPoint a.roster q := by simp [ClearPoint, hc, hs, hst, hren]
        rw [cacheAfter_of_quiet hp, hq]
        rwa [if_neg hren] at hr
    · have hp : ClearPoint a.roster q := Or.inr (Or.inl ⟨by simp [hs], by rwa [hs]⟩)
      rw [cacheAfter_of_clearPoint hp]
      rcases authority_step (b := b) hf ht hs x with hsame | ⟨s₁, s₂, -, hu, -⟩ | hempty
      · rw [step_of_request hx] at hsame
        exact absurd hsame hst
      · simp [hu, LinkState.endpoint] at hheld
      · exact recached_clear_of_empty hw hempty

/-- The roster and the request say what becomes of each cache. -/
theorem recached_step (hx : x.request? = some q) :
    Recached (cacheAfter a.roster q) a.service (step b a x).service := by
  have hstep : (step b a x).service = effect b q (q.amend a.roster).lineup a.service := by
    rw [step_of_request hx]
  cases q with
  | packageEvent ev =>
    refine recached_evaluation hf ht hv hidle hx rfl rfl ?_ ?_ <;> rw [hstep]
    · exact whole_packageEvent ht.served ev
    · intro s e hs hst he hheld
      split
      · rename_i hren
        exact recached_of_renewed hf ht hs hst he hheld hren
      · rename_i hren
        rw [effect, Service.packageEvent_of_held hst he hheld fun t hm =>
          unforced_of_not_renewed hm hst hren]
        exact recached_id rfl rfl
  | settingChanged c =>
    refine recached_evaluation hf ht hv hidle hx rfl rfl ?_ ?_ <;> rw [hstep]
    · exact whole_settingEvent ht.served
    · intro s e hs hst he hheld
      rw [if_neg (by simp [Request.renewed]), effect, Service.settingEvent_of_held hst he hheld]
      exact recached_id rfl rfl
  | userUnlocked u =>
    refine recached_evaluation hf ht hv hidle hx rfl rfl ?_ ?_ <;> rw [hstep]
    · exact whole_bindTo (s := { a.service with
        monitors := (a.service.monitors.registerPackages a.roster.candidates ()).2 }) ht.served
    · intro s e hs hst he hheld
      rw [if_neg (by simp [Request.renewed]), effect, Service.userUnlocked_of_held hst he hheld]
      exact recached_id rfl rfl
  | scoresUpdate u =>
    rw [hstep, cacheAfter_of_quiet (not_clearPoint rfl rfl rfl)]
    by_cases hu : a.roster.lineup.isActive u.caller.uid = true
    · rw [taken_of_active hu]
      exact recached_of_brought ht (if_pos hu)
    · have he : effect b (.scoresUpdate u) ((Request.scoresUpdate u).amend a.roster).lineup
          a.service = a.service := if_neg hu
      rw [taken_of_other hu, he]
      exact recached_id rfl rfl
  | scoresClear c =>
    by_cases hu : (Request.scoresClear c).clears a.roster.lineup = true
    · have he : effect b (.scoresClear c) ((Request.scoresClear c).amend a.roster).lineup
          a.service = a.service.clearScores (ports b) := if_pos hu
      rw [hstep, cacheAfter_of_clearPoint (Or.inl hu), he]
      exact recached_clearScores ht.served
    · have he : effect b (.scoresClear c) ((Request.scoresClear c).amend a.roster).lineup
          a.service = a.service := if_neg hu
      rw [hstep, cacheAfter_of_quiet (not_clearPoint (Bool.eq_false_iff.mpr hu) rfl rfl), he]
      exact recached_id rfl rfl
  | networkCurrent n =>
    rw [hstep, cacheAfter_of_quiet (not_clearPoint rfl rfl rfl)]
    exact recached_recache
  | networkScan n =>
    rw [hstep, cacheAfter_of_quiet (not_clearPoint rfl rfl rfl)]
    exact recached_recache
  | _ =>
    rw [hstep, cacheAfter_of_quiet (not_clearPoint rfl rfl rfl)]
    exact recached_id rfl rfl

end Steps

end Agent

end ScoreRelay
