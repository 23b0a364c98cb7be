import ScoreRelay.Proofs.Agent.Caches

/-! What each request makes of the caches. An update of the scorer in charge puts its records in; all else
leaves the scores of a cache alone or drops them. -/
namespace ScoreRelay.Agent

variable {σ : Type} {b : Binder σ} {s s' : Service Nat (World σ)} {l : Lineup} {t : NetworkType}
  {c : Config} {f : MemoryCache → MemoryCache} {networks : List ScoredNetwork}

/-- What becomes of a cache when the scores of one kind are handed out. -/
def offered (networks : List ScoredNetwork) (t : NetworkType) (m : MemoryCache) : MemoryCache :=
  if m.networkType = t ∧ Service.batch networks t ≠ [] then (m.update (Service.batch networks t)).2
  else m

/-- What becomes of a cache when scores are handed out. -/
def delivered (networks : List ScoredNetwork) (m : MemoryCache) : MemoryCache :=
  offered networks m.networkType m

theorem networkType_batch {n : ScoredNetwork} (h : n ∈ Service.batch networks t) :
    n.networkType = t := by
  simpa using (List.mem_filter.mp h).2

theorem offered_of_other {m : MemoryCache} (h : m.networkType ≠ t) : offered networks t m = m := by
  simp [offered, h]

theorem delivered_eq {m : MemoryCache} : delivered networks m =
    if Service.batch networks m.networkType = [] then m
    else { m with
      scores := MemoryCache.putAll ((Service.batch networks m.networkType).filter
        fun n => m.accepts n.key) m.scores
      updates := m.updates + 1 } := by
  have hu : m.update (Service.batch networks m.networkType) = _ :=
    MemoryCache.update_own fun n hn => networkType_batch hn
  by_cases hb : Service.batch networks m.networkType = []
  · simp [delivered, offered, hb]
  · simp [delivered, offered, hb, hu]

theorem networkType_delivered (m : MemoryCache) :
    (delivered networks m).networkType = m.networkType := by
  rw [delivered_eq]
  split <;> rfl

/-- The records of the cache's kind that its filter lets pass are put in, and nothing else. -/
theorem scores_delivered (m : MemoryCache) : (delivered networks m).scores =
    MemoryCache.putAll ((Service.batch networks m.networkType).filter
      fun n => m.accepts n.key) m.scores := by
  rw [delivered_eq]
  split
  · rename_i hb
    rw [hb]
    rfl
  · rfl

/-- A record held after scores were handed out is one of them, or was held before and is not replaced. -/
theorem mem_delivered {m : MemoryCache} {n : ScoredNetwork} (h : MemoryCache.Ascending m.scores)
    (hn : n ∈ (delivered networks m).scores) :
    (n ∈ networks ∧ n.networkType = m.networkType ∧ m.accepts n.key = true) ∨
      n ∈ m.scores ∧ ∀ n' ∈ networks, n'.networkType = m.networkType →
        m.accepts n'.key = true → n'.key ≠ n.key := by
  rw [scores_delivered] at hn
  rcases MemoryCache.mem_putAll h hn with hn | ⟨hn, hnew⟩
  · obtain ⟨hb, ha⟩ := List.mem_filter.mp hn
    exact Or.inl ⟨(List.mem_filter.mp hb).1, networkType_batch hb, ha⟩
  · refine Or.inr ⟨hn, ?_⟩
    intro n' hn' ht ha hk
    have hb : n' ∈ Service.batch networks m.networkType :=
      List.mem_filter.mpr ⟨hn', by simpa using ht⟩
    exact hnew n' (List.mem_filter.mpr ⟨hb, ha⟩) (by rw [hk])

theorem networkType_offered (m : MemoryCache) :
    (offered networks t m).networkType = m.networkType := by
  by_cases h : m.networkType = t
  · subst h
    exact networkType_delivered m
  · rw [offered_of_other h]

theorem update_single {reg : Registration Nat} {m : MemoryCache}
    (hm : s.link.world.caches[reg.cache]? = some m) (batch : List ScoredNetwork) :
    let s' := s.tell [⟨t, [reg]⟩] fun reg => (ports b).caches.update reg batch
    s'.registry = s.registry ∧
      s'.link.world.caches = s.link.world.caches.set reg.cache (m.update batch).2 := by
  have hu : (memoryPort.update reg batch (s.registry, s.link.world)).2 = (s.registry,
      { s.link.world with caches := s.link.world.caches.set reg.cache (m.update batch).2 }) := by
    simp only [memoryPort, hm]
  exact ⟨congrArg Prod.fst hu, congrArg (fun x => x.2.caches) hu⟩

/-- The scores of a kind reach the one cache of that kind, if there is one. -/
theorem recached_updateType (h : Served (kinds s.link.world.caches) s.registry)
    (networks : List ScoredNetwork) (t : NetworkType) :
    Recached (offered networks t) s (Service.updateType (ports b) networks s t) := by
  have hkind {i : Nat} {m : MemoryCache} (hm : s.link.world.caches[i]? = some m) :
      (kinds s.link.world.caches)[i]? = some m.networkType := by simp [kinds, hm]
  unfold Service.updateType
  split
  · rename_i hb
    have ho : ∀ m, offered networks t m = m := fun m => by
      simp [offered, List.isEmpty_iff.mp hb]
    exact ⟨rfl, by rw [List.map_congr_left fun m _ => ho m, List.map_id']⟩
  · rename_i hb
    split
    · rename_i set hs
      have hmem : t ∈ kinds s.link.world.caches := by
        by_contra hn
        rw [h.only t hn] at hs
        contradiction
      obtain ⟨m, hm, rfl⟩ := List.mem_map.mp hmem
      obtain ⟨k, hk⟩ := List.mem_iff_getElem?.mp hm
      obtain ⟨reg, hreg, rfl⟩ := h.own k _ (hkind hk)
      obtain rfl : set = _ := Option.some.inj (hs.symm.trans hreg)
      obtain ⟨hr, hc⟩ := update_single (b := b) (t := m.networkType) hk
        (Service.batch networks m.networkType)
      refine ⟨hr, hc.trans (List.ext_getElem? ?_)⟩
      intro i
      rw [List.getElem?_set, List.getElem?_map]
      split
      · rename_i hi
        subst hi
        have hlt := (List.getElem?_eq_some_iff.mp hk).1
        simp only [hk, hlt, if_true, Option.map_some, offered, true_and]
        rw [if_pos (by simpa using hb)]
      · rename_i hi
        cases hmi : s.link.world.caches[i]? with
        | none => rfl
        | some m' =>
          have hne : m'.networkType ≠ m.networkType := by
            intro he
            obtain ⟨reg', hreg', hi'⟩ := h.own i _ (hkind hmi)
            rw [he, hreg] at hreg'
            simp at hreg'
            exact hi (by rw [hreg', hi'])
          rw [Option.map_some, offered_of_other hne]
    · rename_i hs
      have ho : ∀ m ∈ s.link.world.caches, offered networks t m = m := by
        intro m hm
        obtain ⟨k, hk⟩ := List.mem_iff_getElem?.mp hm
        apply offered_of_other
        intro he
        obtain ⟨reg, hreg, -⟩ := h.own k _ (hkind hk)
        rw [he, hs] at hreg
        contradiction
      refine ⟨rfl, ?_⟩
      rw [List.map_congr_left ho, List.map_id']

theorem recached_updateScores (h : Served (kinds s.link.world.caches) s.registry) :
    Recached (delivered networks) s (s.updateScores (ports b) networks) := by
  have h1 := recached_updateType (b := b) h networks .wifi
  have hs1 := served_recached h h1 networkType_offered
  have h2 := recached_updateType (b := b) hs1 networks .cellular
  have hs2 := served_recached hs1 h2 networkType_offered
  have h3 := recached_updateType (b := b) hs2 networks .ethernet
  have hf : offered networks .ethernet ∘ offered networks .cellular ∘ offered networks .wifi =
      delivered networks := by
    funext m
    simp only [Function.comp_apply, delivered]
    cases ht : m.networkType <;>
      simp [offered_of_other, networkType_offered, ht]
  rw [← hf]
  exact recached_trans (recached_trans h1 h2) h3

/-- The scores that a request brings, if its caller is in charge. -/
def brought (l : Lineup) : Request → Option (List ScoredNetwork)
  | .scoresUpdate u => if l.isActive u.caller.uid then some u.networks else none
  | _ => none

/-- Every cache stays of its kind, and keeps its scores or drops all of them. -/
def Dropping (f : MemoryCache → MemoryCache) : Prop :=
  ∀ m, (f m).networkType = m.networkType ∧ ((f m).scores = m.scores ∨ (f m).scores = [])

theorem dropping_whole (h : Whole s s') : ∃ f, Recached f s s' ∧ Dropping f := by
  rcases h with h | h
  · exact ⟨id, h, fun m => ⟨rfl, Or.inl rfl⟩⟩
  · exact ⟨MemoryCache.clear, h, fun m => ⟨rfl, Or.inr rfl⟩⟩

theorem tended_dropping (h : Tended s) (hr : Recached f s s') (hf : Dropping f) : Tended s' := by
  refine tended_recached h hr (fun m => (hf m).1) ?_
  intro m hm
  rcases (hf m).2 with he | he <;> rw [he]
  · exact hm
  · exact List.Pairwise.nil

theorem recached_of_brought {q : Request} (h : Tended s) (hq : brought l q = some networks) :
    Recached (delivered networks) s (effect b q l s) := by
  cases q with
  | scoresUpdate u =>
    simp only [brought, Option.ite_none_right_eq_some] at hq
    obtain ⟨hu, hn⟩ := hq
    obtain rfl := Option.some.inj hn
    rw [effect, if_pos hu]
    exact recached_updateScores h.served
  | _ => contradiction

theorem recached_of_not_brought {q : Request} (h : Tended s) (hq : brought l q = none) :
    ∃ f, Recached f s (effect b q l s) ∧ Dropping f := by
  cases q with
  | packageEvent ev => exact dropping_whole (whole_packageEvent h.served ev)
  | settingChanged c => exact dropping_whole (whole_settingEvent h.served)
  | userUnlocked u =>
    exact dropping_whole (whole_bindTo (s := { s with
      monitors := (s.monitors.registerPackages l.candidates ()).2 }) h.served)
  | scoresUpdate u =>
    have hu : ¬ l.isActive u.caller.uid = true := fun hu => by simp [brought, hu] at hq
    rw [effect, if_neg hu]
    exact dropping_whole whole_refl
  | scoresClear c =>
    simp only [effect]
    split
    · exact dropping_whole (Or.inr (recached_clearScores h.served))
    · exact dropping_whole whole_refl
  | networkCurrent n => exact ⟨_, recached_recache, fun m => ⟨rfl, Or.inl rfl⟩⟩
  | networkScan n => exact ⟨_, recached_recache, fun m => ⟨rfl, Or.inl rfl⟩⟩
  | _ => exact dropping_whole whole_refl

theorem tended_effect (h : Tended s) (q : Request) : Tended (effect b q l s) := by
  cases hq : brought l q with
  | some networks =>
    refine tended_recached h (recached_of_brought h hq) networkType_delivered ?_
    intro m hm
    rw [scores_delivered]
    exact MemoryCache.ascending_putAll hm
  | none =>
    obtain ⟨f, hr, hf⟩ := recached_of_not_brought (b := b) h hq
    exact tended_dropping h hr hf

theorem tended_step {a : Agent σ} (h : Tended a.service) (x : Input) :
    Tended (step b a x).service := by
  cases hx : x.request? with
  | some q =>
    rw [step_of_request hx]
    exact tended_effect h q
  | none =>
    obtain ⟨state, queue, -, hs⟩ := step_of_no_request (b := b) (a := a) hx
    rw [hs]
    exact ⟨h.distinct, h.served, h.ascending⟩

theorem tended_run {a : Agent σ} (h : Tended a.service) (xs : List Input) :
    Tended (run b a xs).service :=
  run_keeps (P := fun a => Tended a.service) (fun _ x h => tended_step h x) h xs

theorem scores_fresh (name : Nat → String) (w : σ) :
    ∀ m ∈ (fresh c name w).caches, m.scores = [] := by
  intro m hm
  obtain ⟨⟨t, k⟩, -, rfl⟩ := List.mem_map.mp hm
  rfl

theorem kinds_fresh (name : Nat → String) (w : σ) :
    kinds (fresh c name w).caches = c.cacheTypes := by
  simp [kinds, caches, world, fresh, configured, Function.comp_def]

theorem tended_fresh (h : c.cacheTypes.Nodup) (name : Nat → String) (w : σ) :
    Tended (fresh c name w).service := by
  have hk : (kinds (configured c name)).Nodup := (kinds_fresh name w).symm ▸ h
  refine ⟨hk, served_registerCaches hk, ?_⟩
  intro m hm
  rw [scores_fresh name w m hm]
  exact List.Pairwise.nil

/-- To begin is to evaluate once. -/
theorem whole_started (h : c.cacheTypes.Nodup) (name : Nat → String) (w : σ) :
    Whole (fresh c name w).service (started b c name w).service := by
  have hready : Recached id (fresh c name w).service
      ((fresh c name w).service.systemReady (fresh c name w).lineup) :=
    recached_id Service.systemReady_registry (by rw [Service.systemReady_link])
  have hs := served_recached (tended_fresh h name w).served hready fun _ => rfl
  exact whole_trans (Or.inl hready) (whole_bindTo hs)

theorem tended_started (h : c.cacheTypes.Nodup) (name : Nat → String) (w : σ) :
    Tended (started b c name w).service := by
  obtain ⟨f, hr, hd⟩ := dropping_whole (whole_started (b := b) h name w)
  exact tended_dropping (tended_fresh h name w) hr hd

/-- An agent begins with nothing in its caches. -/
theorem scores_started (h : c.cacheTypes.Nodup) (name : Nat → String) (w : σ) :
    ∀ m ∈ (started b c name w).caches, m.scores = [] := by
  obtain ⟨f, hr, hd⟩ := dropping_whole (whole_started (b := b) h name w)
  intro m hm
  rw [caches, world, hr.2] at hm
  obtain ⟨m₀, hm₀, rfl⟩ := List.mem_map.mp hm
  have he : m₀.scores = [] := scores_fresh name w m₀ hm₀
  rcases (hd m₀).2 with hf | hf
  · rw [hf, he]
  · exact hf

end ScoreRelay.Agent
