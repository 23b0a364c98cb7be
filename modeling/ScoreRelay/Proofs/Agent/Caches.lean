import ScoreRelay.Proofs.Agent.Run
import ScoreRelay.Proofs.Cache.Scores
import ScoreRelay.Proofs.Registry.Register

/-! The caches of an agent and their registrations. Each is registered for its own kind alone, so a clear
reaches all of them; an evaluation clears all of them or none. -/
namespace ScoreRelay.Agent

variable {σ : Type} {b : Binder σ} {s s' s'' : Service Nat (World σ)} {r : Registry Nat}
  {l : Lineup} {t : NetworkType} {k : Nat} {cs : List MemoryCache} {e : Endpoint}
  {f g : MemoryCache → MemoryCache} {scorer : Option Scorer}

/-- The kinds of caches, by place. -/
def kinds (cs : List MemoryCache) : List NetworkType := cs.map MemoryCache.networkType

/-- Each place has one registration, for the kind of its cache, and no other kind has any. -/
structure Served (types : List NetworkType) (r : Registry Nat) : Prop where
  own : ∀ k t, types[k]? = some t → ∃ reg, r.snapshot t = some ⟨t, [reg]⟩ ∧ reg.cache = k
  only : ∀ t, t ∉ types → r.snapshot t = none

theorem snapshot_registerCaches (h : r.Packed) (hn : (kinds cs).Nodup)
    (hv : ∀ c ∈ cs, r.snapshot c.networkType = none) :
    (∀ t, t ∉ kinds cs → (registerCaches k cs r).snapshot t = r.snapshot t) ∧
      ∀ i c, cs[i]? = some c → ∃ reg,
        (registerCaches k cs r).snapshot c.networkType = some ⟨c.networkType, [reg]⟩ ∧
          reg.cache = k + i := by
  induction cs generalizing k r with
  | nil => simp [registerCaches]
  | cons c cs ih =>
    obtain ⟨hc, hcs⟩ := List.nodup_cons.mp hn
    have hvc : r.snapshot c.networkType = none := hv c List.mem_cons_self
    have hreg (t : NetworkType) : (r.register ⟨c.networkType, c.id, c.filter, k⟩).2.snapshot t =
        if t = c.networkType then some ⟨t, [⟨c.networkType, c.id, c.filter, k⟩]⟩
        else r.snapshot t := Registry.snapshot_register h hvc
    obtain ⟨hother, hown⟩ := ih (k := k + 1) (Registry.packed_register h hvc) hcs
      (fun c' hc' => by
        have hne : c'.networkType ≠ c.networkType := fun he =>
          hc (he ▸ List.mem_map_of_mem hc')
        rw [hreg, if_neg hne]
        exact hv c' (List.mem_cons_of_mem _ hc'))
    constructor
    · intro t ht
      obtain ⟨hne, ht⟩ := List.ne_and_not_mem_of_not_mem_cons ht
      exact (hother t ht).trans ((hreg t).trans (if_neg hne))
    · intro i c' hi
      cases i with
      | zero =>
        obtain rfl : c = c' := Option.some.inj hi
        exact ⟨_, (hother _ hc).trans ((hreg _).trans (if_pos rfl)), rfl⟩
      | succ i =>
        obtain ⟨reg, hs, hk⟩ := hown i c' hi
        exact ⟨reg, hs, by omega⟩

theorem served_registerCaches (hn : (kinds cs).Nodup) :
    Served (kinds cs) (registerCaches 0 cs {}) := by
  obtain ⟨hother, hown⟩ := snapshot_registerCaches (k := 0) Registry.packed_empty hn
    (fun c _ => Registry.snapshot_empty)
  refine ⟨?_, fun t ht => (hother t ht).trans Registry.snapshot_empty⟩
  intro k t ht
  simp only [kinds, List.getElem?_map, Option.map_eq_some_iff] at ht
  obtain ⟨c, hc, rfl⟩ := ht
  simpa using hown k c hc

/-- The registrations are the same, and the caches have become what `f` makes of them. -/
def Recached (f : MemoryCache → MemoryCache) (s s' : Service Nat (World σ)) : Prop :=
  s'.registry = s.registry ∧ s'.link.world.caches = s.link.world.caches.map f

theorem recached_id (hr : s'.registry = s.registry)
    (hc : s'.link.world.caches = s.link.world.caches) : Recached id s s' :=
  ⟨hr, by rw [hc, List.map_id]⟩

theorem recached_trans (h : Recached f s s') (h' : Recached g s' s'') :
    Recached (g ∘ f) s s'' :=
  ⟨h'.1.trans h.1, by rw [h'.2, h.2, List.map_map]⟩

theorem recached_recache : Recached f s (recache f s) := ⟨rfl, rfl⟩

/-- A service whose caches are of different kinds, each registered for its own, with their scores in
order. -/
structure Tended (s : Service Nat (World σ)) : Prop where
  distinct : (kinds s.link.world.caches).Nodup
  served : Served (kinds s.link.world.caches) s.registry
  ascending : ∀ m ∈ s.link.world.caches, MemoryCache.Ascending m.scores

theorem kinds_recached (h : Recached f s s') (ht : ∀ m, (f m).networkType = m.networkType) :
    kinds s'.link.world.caches = kinds s.link.world.caches := by
  rw [h.2, kinds, List.map_map]
  exact List.map_congr_left fun m _ => ht m

theorem tended_recached (hs : Tended s) (h : Recached f s s')
    (ht : ∀ m, (f m).networkType = m.networkType)
    (ha : ∀ m, MemoryCache.Ascending m.scores → MemoryCache.Ascending (f m).scores) :
    Tended s' where
  distinct := by
    rw [kinds_recached h ht]
    exact hs.distinct
  served := by
    rw [kinds_recached h ht, h.1]
    exact hs.served
  ascending := by
    rw [h.2]
    intro m hm
    obtain ⟨m₀, hm₀, rfl⟩ := List.mem_map.mp hm
    exact ha m₀ (hs.ascending m₀ hm₀)

/-- Clear the caches at some places. -/
def clearAt (ks : List Nat) (cs : List MemoryCache) : List MemoryCache :=
  ks.foldl (fun cs k => cs.modify k MemoryCache.clear) cs

theorem foldl_clear (regs : List (Registration Nat)) (r : Registry Nat) (w : World σ) :
    regs.foldl (fun s reg => (memoryPort.clear reg s).2) (r, w) =
      (r, { w with caches := clearAt (regs.map Registration.cache) w.caches }) := by
  induction regs generalizing w with
  | nil => rfl
  | cons reg regs ih => exact ih _

theorem getElem?_clearAt (ks : List Nat) (i : Nat) : (clearAt ks cs)[i]? =
    if i ∈ ks then cs[i]?.map MemoryCache.clear else cs[i]? := by
  unfold clearAt
  induction ks generalizing cs with
  | nil => simp
  | cons k ks ih =>
    rw [List.foldl_cons, ih, List.getElem?_modify]
    by_cases hk : k = i
    · subst hk
      cases cs[k]? <;> simp [MemoryCache.clear]
    · simp [hk, Ne.symm hk]

/-- A clear reaches every cache. -/
theorem recached_clearScores (h : Served (kinds s.link.world.caches) s.registry) :
    Recached MemoryCache.clear s (s.clearScores (ports b)) := by
  have hb : (broadcast memoryPort.clear s.registry.snapshotAll (s.registry, s.link.world)).2 = _ :=
    broadcast_state _ _
  rw [foldl_clear] at hb
  have hs : ((s.clearScores (ports b)).registry, (s.clearScores (ports b)).link.world) =
      (broadcast memoryPort.clear s.registry.snapshotAll (s.registry, s.link.world)).2 := rfl
  rw [hb, Prod.mk.injEq] at hs
  refine ⟨hs.1, ?_⟩
  rw [hs.2]
  apply List.ext_getElem?
  intro i
  rw [getElem?_clearAt, List.getElem?_map]
  cases hi : s.link.world.caches[i]? with
  | none => simp
  | some m =>
    obtain ⟨reg, hreg, rfl⟩ := h.own i m.networkType (by simp [kinds, hi])
    rw [if_pos]
    refine List.mem_map_of_mem (List.mem_flatMap.mpr ⟨⟨m.networkType, [reg]⟩, ?_, by simp⟩)
    exact List.mem_filterMap.mpr ⟨m.networkType, NetworkType.mem_all _, hreg⟩

theorem caches_disconnect (k : Link (World σ)) :
    (k.disconnect (ports b).binder).2.world.caches = k.world.caches := by
  rcases Link.disconnect_cases (ports b).binder k with ⟨-, hd⟩ | ⟨e, -, hd⟩ <;> rw [hd]
  rfl

theorem recached_release (h : Served (kinds s.link.world.caches) s.registry) :
    Recached MemoryCache.clear s (Service.release (ports b) s) := by
  have hd := caches_disconnect (b := b) s.link
  have hc := recached_clearScores (b := b)
    (s := { s with link := (s.link.disconnect (ports b).binder).2 }) (by rwa [hd])
  exact ⟨hc.1, hc.2.trans (by rw [hd])⟩

/-- With nothing held there is nothing whose loss would be noticed. -/
theorem recached_bindTo_of_unbound (he : scorer.bind Scorer.endpoint = some e)
    (hu : s.link.state = .unbound) : Recached id s (Service.bindTo (ports b) scorer s).2 := by
  rw [Service.bindTo_of_unbound he hu]
  exact recached_id rfl (by rw [Link.request_world]; rfl)

theorem served_recached (h : Served (kinds s.link.world.caches) s.registry)
    (hr : Recached f s s') (ht : ∀ m, (f m).networkType = m.networkType) :
    Served (kinds s'.link.world.caches) s'.registry := by
  rwa [kinds_recached hr ht, hr.1]

/-- To give up what is held before a bind is to clear all caches. -/
theorem recached_bindTo_release (h : Served (kinds s.link.world.caches) s.registry) :
    Recached MemoryCache.clear s
      (Service.bindTo (ports b) scorer (Service.release (ports b) s)).2 := by
  have hr := recached_release (b := b) h
  cases he : scorer.bind Scorer.endpoint with
  | none =>
    rw [Service.bindTo_of_none he]
    exact recached_trans hr (recached_release (served_recached h hr fun _ => rfl))
  | some e => exact recached_trans hr (recached_bindTo_of_unbound he Service.release_state)

theorem recached_bindTo_of_other {held : Endpoint}
    (h : Served (kinds s.link.world.caches) s.registry)
    (hs : s.link.state.endpoint = some held) (hne : scorer.bind Scorer.endpoint ≠ some held) :
    Recached MemoryCache.clear s (Service.bindTo (ports b) scorer s).2 := by
  cases he : scorer.bind Scorer.endpoint with
  | none =>
    rw [Service.bindTo_of_none he]
    exact recached_release h
  | some e =>
    rw [Service.bindTo_of_other he hs fun hh => hne (hh ▸ he)]
    exact recached_bindTo_release h

theorem recached_packageChanged_of_none {t : Trigger}
    (h : Served (kinds s.link.world.caches) s.registry) (ht : t.package ∈ l.candidates)
    (hl : l.active = none) :
    Recached MemoryCache.clear s (Service.packageChanged (ports b) l t s).2 := by
  rcases Service.packageChanged_of_candidate (p := ports b) (s := s) ht with he | he <;> rw [he, hl]
  · rw [Service.bindTo_of_none rfl]
    exact recached_release h
  · exact recached_bindTo_release h

/-- The caches are left alone or all cleared. -/
def Whole (s s' : Service Nat (World σ)) : Prop :=
  Recached id s s' ∨ Recached MemoryCache.clear s s'

theorem whole_refl : Whole s s := Or.inl (recached_id rfl rfl)

theorem whole_trans (h : Whole s s') (h' : Whole s' s'') : Whole s s'' := by
  rcases h with h | h <;> rcases h' with h' | h'
  · exact Or.inl (recached_trans h h')
  · exact Or.inr (recached_trans h h')
  · exact Or.inr (recached_trans h h')
  · exact Or.inr (recached_trans h h')

theorem served_whole (h : Served (kinds s.link.world.caches) s.registry) (hw : Whole s s') :
    Served (kinds s'.link.world.caches) s'.registry := by
  rcases hw with hw | hw
  · exact served_recached h hw fun _ => rfl
  · exact served_recached h hw fun _ => rfl

theorem whole_bindTo (h : Served (kinds s.link.world.caches) s.registry) :
    Whole s (Service.bindTo (ports b) scorer s).2 := by
  rcases Service.bindTo_cases (ports b) scorer s with
    ⟨-, hb⟩ | ⟨e, -, -, hb⟩ | ⟨e, he, hu, -⟩ | ⟨e, held, he, hs, hne, -⟩
  · rw [hb]
    exact Or.inr (recached_release h)
  · rw [hb]
    exact whole_refl
  · exact Or.inl (recached_bindTo_of_unbound he hu)
  · exact Or.inr (recached_bindTo_of_other h hs fun hw => hne (Option.some.inj (hw.symm.trans he)))

theorem whole_packageChanged (h : Served (kinds s.link.world.caches) s.registry) (t : Trigger) :
    Whole s (Service.packageChanged (ports b) l t s).2 := by
  by_cases ht : t.package ∈ l.candidates
  · rcases Service.packageChanged_of_candidate (p := ports b) (s := s) ht with he | he <;> rw [he]
    · exact whole_bindTo h
    · exact Or.inr (recached_bindTo_release h)
  · rw [Service.packageChanged_of_stranger ht]
    exact whole_refl

theorem whole_packageEvent (h : Served (kinds s.link.world.caches) s.registry)
    (ev : PackageEvent) : Whole s (s.packageEvent (ports b) l ev).2 := by
  refine Service.packageEvent_keeps (P := Whole s) ?_ whole_refl
  intro t _ _ s' hw
  exact whole_trans hw (whole_packageChanged (served_whole h hw) t)

theorem whole_settingEvent (h : Served (kinds s.link.world.caches) s.registry) :
    Whole s (s.settingEvent (ports b) l).2 := by
  rw [Service.settingEvent_eq]
  split
  · exact whole_bindTo h
  · exact whole_refl

end ScoreRelay.Agent
