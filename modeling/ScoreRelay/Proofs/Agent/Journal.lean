import ScoreRelay.Proofs.Agent.Clearing

/-! What the caches of an agent hold, told by its requests alone: the last record under each key since the
last clear point, if the binder takes every bind. -/
namespace ScoreRelay

/-- What the requests of an agent come to, as far as its caches go. -/
structure Journal where
  roster : Roster
  /-- The network the device is attached to. -/
  current : Option NetworkKey := none
  /-- The networks of the latest scan. -/
  scan : List NetworkKey := []
  /-- What was given and let pass since the last clear point, oldest first. -/
  records : List ScoredNetwork := []

namespace Journal

/-- A record under this key would be let pass now. -/
def admits (filter : CacheFilter) (j : Journal) (k : NetworkKey) : Bool :=
  match filter with
  | .none => true
  | .currentNetwork => j.current == some k
  | .scanResults => j.scan.contains k

def note (filter : CacheFilter) (j : Journal) (q : Request) : Journal where
  roster := q.amend j.roster
  current :=
    match q with
    | .networkCurrent n => n.network
    | _ => j.current
  scan :=
    match q with
    | .networkScan n => n.networks
    | _ => j.scan
  records :=
    if ClearPoint j.roster q then []
    else
      j.records ++ ((Agent.brought j.roster.lineup q).getD []).filter fun n => j.admits filter n.key

def noteAll (filter : CacheFilter) (j : Journal) (qs : List Request) : Journal :=
  qs.foldl (note filter) j

/-- The last record under a key. -/
def latest (j : Journal) (k : NetworkKey) : Option ScoredNetwork :=
  (j.records.filter fun n => n.key = k).getLast?

variable {filter : CacheFilter} {j : Journal} {q : Request}

/-- While nobody is in charge nothing is on record. -/
def Settled (j : Journal) : Prop := j.roster.active = none → j.records = []

theorem settled_note (h : j.Settled) : (j.note filter q).Settled := by
  intro hn
  change (q.amend j.roster).active = none at hn
  by_cases hp : ClearPoint j.roster q
  · exact if_pos hp
  · have ha : j.roster.active = none := by
      by_contra ha
      exact hp (Or.inr (Or.inl ⟨ha, by rw [hn]; exact Ne.symm ha⟩))
    have hb : Agent.brought j.roster.lineup q = none := by
      cases q <;> simp [Agent.brought, Lineup.isActive, Roster.lineup, ha]
    simp [note, hp, h ha, hb]

theorem note_of_clearPoint (h : ClearPoint j.roster q) :
    j.note filter q = ⟨q.amend j.roster, j.current, j.scan, []⟩ := by
  cases q with
  | networkCurrent n => exact absurd h (Agent.not_clearPoint rfl rfl rfl)
  | networkScan n => exact absurd h (Agent.not_clearPoint rfl rfl rfl)
  | _ => simp [note, h]

theorem latest_note_of_quiet (hp : ¬ ClearPoint j.roster q)
    (hb : Agent.brought j.roster.lineup q = none) {k : NetworkKey} :
    (j.note filter q).latest k = j.latest k := by
  simp [latest, note, hp, hb]

end Journal

namespace Agent

variable {σ : Type} {b : Binder σ} {a : Agent σ} {x : Input} {xs : List Input} {q : Request}
  {filter : CacheFilter} {j : Journal} {m : MemoryCache} {types : List NetworkType}
  {networks : List ScoredNetwork}

/-- A cache knows of its own kind what the journal knows of all. -/
structure Kept (filter : CacheFilter) (j : Journal) (m : MemoryCache) : Prop where
  filter : m.filter = filter
  current : m.current = j.current.filter (·.networkType = m.networkType)
  scan : m.scan = j.scan.filter (·.networkType = m.networkType)
  scores : ∀ id, m.score? id = j.latest ⟨m.networkType, id⟩

theorem accepts_of_kept (h : Kept filter j m) {k : NetworkKey} (hk : k.networkType = m.networkType) :
    m.accepts k = j.admits filter k := by
  unfold MemoryCache.accepts Journal.admits
  rw [h.filter]
  cases filter with
  | none => rfl
  | currentNetwork =>
    rw [h.current]
    cases j.current with
    | none => rfl
    | some c =>
      by_cases hc : c = k
      · simp [Option.filter, hc, hk]
      · simp [Option.filter, hc]
  | scanResults =>
    rw [h.scan, Bool.eq_iff_iff]
    simp [hk]

theorem scores_of_nothing (h : Kept filter j m) (hr : j.records = []) : m.scores = [] := by
  by_contra hn
  obtain ⟨n, hn⟩ := List.exists_mem_of_ne_nil _ hn
  have hs := h.scores n.key.id
  rw [Journal.latest, hr, MemoryCache.score?] at hs
  simpa using List.find?_eq_none.mp hs n hn

/-- The records of a cache's kind are put on record as the cache takes them. -/
theorem score?_delivered (h : Kept filter j m) (id : String) :
    (delivered networks m).score? id =
      ({ j with records := j.records ++ networks.filter fun n => j.admits filter n.key } :
        Journal).latest ⟨m.networkType, id⟩ := by
  have hsame : ((Service.batch networks m.networkType).filter fun n => m.accepts n.key).filter
        (fun n => n.key.id = id) =
      (networks.filter fun n => j.admits filter n.key).filter
        fun n => n.key = ⟨m.networkType, id⟩ := by
    simp only [Service.batch, List.filter_filter]
    apply List.filter_congr
    rintro ⟨⟨t, i⟩, score, metered⟩ -
    by_cases ht : t = m.networkType
    · subst ht
      simp [ScoredNetwork.networkType, accepts_of_kept h (k := ⟨m.networkType, i⟩) rfl, Bool.and_comm]
    · simp [ScoredNetwork.networkType, ht]
  rw [MemoryCache.score?, scores_delivered, MemoryCache.find_putAll, hsame, Journal.latest,
    List.filter_append, List.getLast?_append]
  exact congrArg _ (h.scores id)

theorem kept_delivered (h : Kept filter j m) : Kept filter
    { j with records := j.records ++ networks.filter fun n => j.admits filter n.key }
    (delivered networks m) where
  filter := by
    rw [delivered_eq]
    split <;> exact h.filter
  current := by
    rw [delivered_eq]
    split <;> exact h.current
  scan := by
    rw [delivered_eq]
    split <;> exact h.scan
  scores id := by
    rw [networkType_delivered]
    exact score?_delivered h id

theorem kept_note (h : Kept filter j m) (q : Request) :
    Kept filter (j.note filter q) (cacheAfter j.roster q m) := by
  by_cases hp : ClearPoint j.roster q
  · rw [Journal.note_of_clearPoint hp, cacheAfter_of_clearPoint hp]
    exact ⟨h.filter, h.current, h.scan, fun id => rfl⟩
  · rw [cacheAfter_of_quiet hp]
    cases q with
    | scoresUpdate u =>
      by_cases hu : j.roster.lineup.isActive u.caller.uid = true
      · rw [taken_of_active hu]
        simpa [Journal.note, hp, brought, hu, Request.amend] using kept_delivered h
      · rw [taken_of_other hu]
        simpa [Journal.note, hp, brought, hu, Request.amend] using h
    | networkCurrent n =>
      exact ⟨h.filter, rfl, h.scan,
        fun id => (h.scores id).trans (Journal.latest_note_of_quiet hp rfl).symm⟩
    | networkScan n =>
      exact ⟨h.filter, h.current, rfl,
        fun id => (h.scores id).trans (Journal.latest_note_of_quiet hp rfl).symm⟩
    | _ =>
      exact ⟨h.filter, h.current, h.scan,
        fun id => (h.scores id).trans (Journal.latest_note_of_quiet hp rfl).symm⟩

theorem networkType_cacheAfter (r : Roster) (q : Request) (m : MemoryCache) :
    (cacheAfter r q m).networkType = m.networkType := by
  unfold cacheAfter
  split
  · rfl
  · cases q with
    | scoresUpdate u =>
      by_cases hu : r.lineup.isActive u.caller.uid = true
      · rw [taken_of_active hu, networkType_delivered]
      · rw [taken_of_other hu, id]
    | _ => rfl

/-- The caches of an agent hold what is on record. -/
structure Recorded (filter : CacheFilter) (types : List NetworkType) (j : Journal) (a : Agent σ) :
    Prop where
  roster : a.roster = j.roster
  kinds : kinds a.caches = types
  caches : ∀ m ∈ a.caches, Kept filter j m
  settled : j.Settled

theorem recorded_started {c : Config} (h : c.cacheTypes.Nodup) (name : Nat → String) (w : σ) :
    Recorded c.cacheFilter c.cacheTypes { roster := .ofConfig c } (started b c name w) := by
  have hsame : Recached id (fresh c name w).service (started b c name w).service :=
    recached_of_bare (whole_started h name w) (scores_fresh name w) fun m => Or.inl rfl
  have hc : (started b c name w).caches = configured c name := hsame.2.trans (List.map_id _)
  refine ⟨rfl, ?_, ?_, fun _ => rfl⟩
  · rw [hc]
    exact kinds_fresh name w
  · intro m hm
    rw [hc] at hm
    obtain ⟨⟨t, k⟩, -, rfl⟩ := List.mem_map.mp hm
    exact ⟨rfl, rfl, rfl, fun id => rfl⟩

theorem recorded_step (h : Recorded filter types j a) (hf : a.Following) (ht : Tended a.service)
    (hv : a.service.link.AllAccepted) (x : Input) :
    Recorded filter types (j.noteAll filter x.request?.toList) (step b a x) := by
  cases hx : x.request? with
  | none =>
    obtain ⟨state, queue, -, hs⟩ := step_of_no_request (b := b) (a := a) hx
    rw [hs]
    exact ⟨h.roster, h.kinds, h.caches, h.settled⟩
  | some q =>
    have hidle : a.roster.active = none → ∀ m ∈ a.caches, m.scores = [] := fun hn m hm =>
      scores_of_nothing (h.caches m hm) (h.settled (h.roster ▸ hn))
    have hr : Recached (cacheAfter a.roster q) a.service (step b a x).service :=
      recached_step hf ht hv hidle hx
    refine ⟨?_, ?_, ?_, Journal.settled_note h.settled⟩
    · rw [step_of_request hx, h.roster]
      rfl
    · exact (kinds_recached hr (networkType_cacheAfter _ _)).trans h.kinds
    · intro m hm
      rw [caches, world, hr.2, h.roster] at hm
      obtain ⟨m₀, hm₀, rfl⟩ := List.mem_map.mp hm
      exact kept_note (h.caches m₀ hm₀) q

theorem recorded_run {c : Config} (h : c.cacheTypes.Nodup) (name : Nat → String) (w : σ)
    (hv : (run b (started b c name w) xs).service.link.AllAccepted) :
    Recorded c.cacheFilter c.cacheTypes
      (Journal.noteAll c.cacheFilter { roster := .ofConfig c } (xs.filterMap Input.request?))
      (run b (started b c name w) xs) := by
  induction xs using List.reverseRecOn with
  | nil => exact recorded_started h name w
  | append_singleton xs x ih =>
    rw [run_snoc] at hv
    have hv := allAccepted_of_step hv
    have hf : (run b (started b c name w) xs).Following :=
      following_run (following_started c name w) xs
    have ht : Tended (run b (started b c name w) xs).service := tended_run (tended_started h name w) xs
    have hs := recorded_step (b := b) (ih hv) hf ht hv x
    rw [run_snoc, List.filterMap_append, Journal.noteAll, List.foldl_append]
    exact hs

/-- Whatever reaches an agent whose binder takes every bind, each of its caches holds under an identifier
the last record that was given for it by the scorer in charge and let pass by the filter, as things stood
then, since the last clear point; where there is none it holds nothing. Nothing else has any effect on
what it holds. -/
theorem caches_hold_latest {input : ConfigInput} {c : Config} (h : input.resolve = .ok c)
    (b : Binder σ) (name : Nat → String) (w : σ) (xs : List Input)
    (hv : (run b (started b c name w) xs).service.link.AllAccepted) :
    let a := run b (started b c name w) xs
    let j := Journal.noteAll c.cacheFilter { roster := .ofConfig c } (xs.filterMap Input.request?)
    a.roster = j.roster ∧ ∀ (k : Nat) (t : NetworkType), c.cacheTypes[k]? = some t →
      ∃ m, a.caches[k]? = some m ∧ m.networkType = t ∧
        (∀ id, m.score? id = j.latest ⟨t, id⟩) ∧ ∀ n ∈ m.scores, m.score? n.key.id = some n := by
  intro a j
  have hd := ConfigInput.nodup_cacheTypes h
  have hr : Recorded c.cacheFilter c.cacheTypes j a := recorded_run hd name w hv
  have ht : Tended a.service := tended_run (tended_started hd name w) xs
  refine ⟨hr.roster, ?_⟩
  intro k t hk
  rw [← hr.kinds, kinds, List.getElem?_map, Option.map_eq_some_iff] at hk
  obtain ⟨m, hm, rfl⟩ := hk
  have hmem := List.mem_of_getElem? hm
  exact ⟨m, hm, rfl, (hr.caches m hmem).scores,
    fun n hn => MemoryCache.find_of_mem (ht.ascending m hmem) hn⟩

/-- The score that the first of the pair has brought is there. -/
theorem caches_hold_latest_pair : pairInput.resolve = .ok pair ∧
    (run Scripted.binder (started Scripted.binder pair (fun _ => "cache") { mode := .accept })
      [givenLine]).service.link.AllAccepted ∧
    ∃ m, (run Scripted.binder (started Scripted.binder pair (fun _ => "cache") { mode := .accept })
      [givenLine]).caches[0]? = some m ∧ m.score? "n" = some ⟨⟨.wifi, "n"⟩, 7, false⟩ := by
  have hp : pairInput.resolve = .ok pair := by decide +kernel
  have hv : (run Scripted.binder (started Scripted.binder pair (fun _ => "cache")
      { mode := .accept }) [givenLine]).service.link.AllAccepted := by
    refine allAccepted_run (I := fun w => w.mode = .accept) rfl ?_ (fun _ _ h => h) pair _ _
    intro e n w h
    exact ⟨by simp [Scripted.binder, h, Scripted.BindMode.answer], h⟩
  obtain ⟨-, hc⟩ := caches_hold_latest hp Scripted.binder (fun _ => "cache") { mode := .accept }
    [givenLine] hv
  obtain ⟨m, hm, -, hs, -⟩ := hc 0 .wifi rfl
  refine ⟨hp, hv, m, hm, (hs "n").trans ?_⟩
  rw [List.filterMap_cons, request_given]
  decide +kernel

end Agent

end ScoreRelay
