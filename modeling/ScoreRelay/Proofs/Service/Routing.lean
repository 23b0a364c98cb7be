import ScoreRelay.Proofs.Registry.Reached
import ScoreRelay.Proofs.Service.Access
import ScoreRelay.Proofs.Service.Noted
import ScoreRelay.Scripted.Cache

/-! Where scores go: to every registration of their kind, all of a kind at once and in the order given, whatever
becomes of the single calls. -/
namespace ScoreRelay.Service

variable {κ ω : Type} {p : Ports κ ω} {s : Service κ ω} {k : Service κ (Noted κ ω)} {r : Registry κ}
  {t : NetworkType} {networks : List ScoredNetwork} {types : List NetworkType} {reg : Registration κ}

/-- A cache that an update does not lead to register or unregister anything, however it ends. -/
def Aloof (p : CachePort κ ω) (reg : Registration κ) : Prop :=
  ∀ batch x, (p.update reg batch x).2.1 = x.1

/-- The calls for the scores of one kind: one to each registration, with all of them. -/
def dueUpdates (r : Registry κ) (networks : List ScoredNetwork) (t : NetworkType) : List (PortCall κ) :=
  if batch networks t = [] then []
  else (r.registrations t).map fun reg => .update reg (batch networks t)

/-- A snapshot is of the registrations there are, and is missing only if there are none. -/
theorem registrations_of_snapshot (r : Registry κ) (t : NetworkType) :
    r.snapshot t = some ⟨t, r.registrations t⟩ ∨
      r.snapshot t = none ∧ r.registrations t = [] := by
  rw [Registry.snapshot, Registry.registrations, Registry.index]
  cases r.entries.get t with
  | none => exact Or.inr ⟨rfl, rfl⟩
  | some entry => exact Or.inl rfl

theorem updateType_notes (t : NetworkType) : (updateType p.noted networks k t).notes =
    k.notes ++ dueUpdates k.registry networks t := by
  unfold updateType dueUpdates
  by_cases hb : batch networks t = []
  · simp [hb]
  · have hne : ¬ (batch networks t).isEmpty = true := by simpa using hb
    rw [if_neg hne, if_neg hb]
    rcases registrations_of_snapshot k.registry t with hs | ⟨hs, hn⟩ <;> rw [hs]
    · have hnotes : (k.tell [⟨t, k.registry.registrations t⟩] fun reg =>
          p.noted.caches.update reg (batch networks t)).notes = k.notes ++
            ([⟨t, k.registry.registrations t⟩].flatMap ListenerSet.registrations).map
              fun reg => .update reg (batch networks t) := tell_notes fun _ _ => rfl
      simpa using hnotes
    · simp [hn]

/-- Telling caches something that leave the registry alone changes the world alone. -/
theorem tell_service {sets : List (ListenerSet κ)}
    {act : Registration κ → Registry κ × ω → Delivery × (Registry κ × ω)}
    (h : ∀ reg ∈ sets.flatMap ListenerSet.registrations, ∀ x, (act reg x).2.1 = x.1) :
    ∃ w, s.tell sets act = { s with link := { s.link with world := w } } := by
  let out := broadcast act sets (s.registry, s.link.world)
  have hr : out.2.1 = s.registry :=
    broadcast_keeps_of_mem (P := fun x : Registry κ × ω => x.1 = s.registry)
      (fun reg hm x hx => (h reg hm x).trans hx) rfl
  have ht : s.tell sets act =
      { s with registry := out.2.1, link := { s.link with world := out.2.2 } } := rfl
  exact ⟨out.2.2, by rw [ht, hr]⟩

theorem updateType_service (networks : List ScoredNetwork)
    (h : ∀ reg ∈ s.registry.registrations t, Aloof p.caches reg) :
    ∃ w, updateType p networks s t = { s with link := { s.link with world := w } } := by
  unfold updateType
  split
  · exact ⟨s.link.world, rfl⟩
  · rcases registrations_of_snapshot s.registry t with hs | ⟨hs, -⟩ <;> rw [hs]
    · apply tell_service
      intro reg hm x
      exact h reg (by simpa using hm) _ x
    · exact ⟨s.link.world, rfl⟩

theorem updateTypes_service (networks : List ScoredNetwork)
    (h : ∀ t, ∀ reg ∈ s.registry.registrations t, Aloof p.caches reg)
    (types : List NetworkType) : ∃ w, types.foldl (updateType p networks) s =
      { s with link := { s.link with world := w } } := by
  induction types generalizing s with
  | nil => exact ⟨s.link.world, rfl⟩
  | cons t types ih =>
    obtain ⟨w, hw⟩ := updateType_service networks (h t)
    obtain ⟨w', hw'⟩ := ih (s := { s with link := { s.link with world := w } }) h
    exact ⟨w', by rw [List.foldl_cons, hw, hw']⟩

theorem aloof_noted (h : Aloof p.caches reg) : Aloof p.noted.caches reg :=
  fun batch x => h batch (x.1, x.2.world)

/-- Kind after kind, each finds the registrations as they were in the beginning. -/
theorem updateTypes_notes (h : ∀ t, ∀ reg ∈ k.registry.registrations t, Aloof p.caches reg)
    (types : List NetworkType) : (types.foldl (updateType p.noted networks) k).notes =
      k.notes ++ types.flatMap (dueUpdates k.registry networks) := by
  induction types generalizing k with
  | nil => simp
  | cons t types ih =>
    obtain ⟨w, hw⟩ := updateType_service (p := p.noted) networks
      fun reg hm => aloof_noted (h t reg hm)
    have hr : (updateType p.noted networks k t).registry = k.registry := by rw [hw]
    rw [List.foldl_cons, ih (by rwa [hr]), updateType_notes, hr, List.flatMap_cons,
      List.append_assoc]

theorem mem_dueUpdates (hr : r.Reached) {call : PortCall κ} (h : call ∈ dueUpdates r networks t) :
    ∃ reg ∈ r.registrations reg.networkType, batch networks reg.networkType ≠ [] ∧
      call = .update reg (batch networks reg.networkType) := by
  unfold dueUpdates at h
  split at h
  · simp at h
  · rename_i hb
    obtain ⟨reg, hm, rfl⟩ := List.mem_map.mp h
    obtain rfl : reg.networkType = t := Registry.networkType_of_reached hr hm
    exact ⟨reg, hm, hb, rfl⟩

/-- Handing out scores is always answered with yes. The calls are, kind by kind, one to each registration of the
kind in their order, with all scores of the kind in the order given; kinds without a score or without a
registration are left out, and no registration is called twice. How the calls end changes none of this, and
only the world in which the caches are is changed. All of this is so without the notes, too. -/
theorem scores_routed (p : Ports κ ω) (d : Access.Site κ (Noted κ ω)) (networks : List ScoredNetwork)
    (hr : d.service.registry.Reached)
    (ha : ∀ t, ∀ reg ∈ d.service.registry.registrations t, Aloof p.caches reg) :
    let r := d.service.registry
    let calls := NetworkType.all.flatMap (dueUpdates r networks)
    let after := Access.bare p.noted d (.updateScores networks)
    after.1 = .ok (some true) ∧ after.2.service.notes = d.service.notes ++ calls ∧
      (∃ w, after.2 =
        { d with service := { d.service with link := { d.service.link with world := w } } }) ∧
      (∀ call ∈ calls, ∃ reg ∈ r.registrations reg.networkType,
        batch networks reg.networkType ≠ [] ∧
          call = .update reg (batch networks reg.networkType)) ∧
      (∀ t, ((r.registrations t).map Registration.id).Nodup) ∧
      after.2.service.plain = d.service.plain.updateScores p networks := by
  intro r calls after
  refine ⟨rfl, updateTypes_notes ha _, ?_, ?_, Registry.nodup_ids_of_reached hr,
    (updateScores_seen p.through_noted d.service).symm⟩
  · obtain ⟨w, hw⟩ := updateTypes_service (p := p.noted) networks
      (fun t reg hm => aloof_noted (ha t reg hm)) NetworkType.all
    exact ⟨w, congrArg (fun s => { d with service := s }) hw⟩
  · intro call hc
    obtain ⟨t, -, hc⟩ := List.mem_flatMap.mp hc
    exact mem_dueUpdates hr hc

/-- A scripted cache for a kind of network, told how updates end. -/
def scripted (t : NetworkType) (id : String) (ending : Scripted.Ending) :
    Registration Scripted.CacheScript :=
  ⟨t, id, .none, .mk id ending .ok .ok "" false [] []⟩

/-- Three caches, of which the first crashes over every update and the last one fails. -/
def mixedSite : Access.Site Scripted.CacheScript (Noted Scripted.CacheScript Scripted.World) where
  roster := ⟨[], true⟩
  service :=
    { registry := (({} : Registry Scripted.CacheScript).operateAll
        [.register (scripted .wifi "x" .crash), .register (scripted .cellular "y" .ok),
          .register (scripted .wifi "z" .fail)]).2
      link := { world := { world := { binder := {} } } } }
  sink := {}

/-- The second cache gets nothing, and the crash of the first does not keep anything from the last. -/
theorem scores_routed_mixed : mixedSite.service.registry.Reached ∧
    (∀ t, ∀ reg ∈ mixedSite.service.registry.registrations t, Aloof Scripted.ports.caches reg) ∧
    (Access.bare Scripted.ports.noted mixedSite (.updateScores [⟨⟨.wifi, "n"⟩, 7, false⟩,
        ⟨⟨.ethernet, "m"⟩, 1, false⟩, ⟨⟨.wifi, "n"⟩, 9, false⟩])).2.service.notes =
      [.update (scripted .wifi "x" .crash) [⟨⟨.wifi, "n"⟩, 7, false⟩, ⟨⟨.wifi, "n"⟩, 9, false⟩],
        .update (scripted .wifi "z" .fail) [⟨⟨.wifi, "n"⟩, 7, false⟩, ⟨⟨.wifi, "n"⟩, 9, false⟩]] := by
  have hr : mixedSite.service.registry.Reached := ⟨_, rfl⟩
  have ha : ∀ t, ∀ reg ∈ mixedSite.service.registry.registrations t,
      Aloof Scripted.ports.caches reg := by
    have hone (t : NetworkType) (id : String) (ending : Scripted.Ending) :
        Aloof Scripted.ports.caches (scripted t id ending) := fun _ _ => rfl
    intro t reg hm
    cases t with
    | wifi =>
      have hw : mixedSite.service.registry.registrations .wifi =
          [scripted .wifi "x" .crash, scripted .wifi "z" .fail] := rfl
      rw [hw] at hm
      rcases List.mem_pair.mp hm with rfl | rfl
      · exact hone _ _ _
      · exact hone _ _ _
    | cellular =>
      have hc : mixedSite.service.registry.registrations .cellular =
          [scripted .cellular "y" .ok] := rfl
      rw [hc] at hm
      obtain rfl := List.mem_singleton.mp hm
      exact hone _ _ _
    | ethernet =>
      have he : mixedSite.service.registry.registrations .ethernet = [] := rfl
      simp [he] at hm
  obtain ⟨-, hnotes, -⟩ := scores_routed Scripted.ports mixedSite
    [⟨⟨.wifi, "n"⟩, 7, false⟩, ⟨⟨.ethernet, "m"⟩, 1, false⟩, ⟨⟨.wifi, "n"⟩, 9, false⟩] hr ha
  exact ⟨hr, ha, hnotes⟩

end ScoreRelay.Service
