import Mathlib.Data.List.Induction
import ScoreRelay.Proofs.Service.Noted
import ScoreRelay.Scripted.Cache

/-! A service after its shutdown. The monitors are gone and no event of the link is taken any more, but
an evaluation that is asked for in another way still binds. -/
namespace ScoreRelay.Service

variable {κ ω : Type} {p : Ports κ ω} {s : Service κ ω} {l : Lineup} {e : Endpoint}
  {t : Trigger}

/-- What a host can do to a service, with whoever is in charge at that time. -/
inductive Operation where
  | systemReady (l : Lineup)
  | systemRunning (l : Lineup)
  | userUnlocked (l : Lineup)
  | packageEvent (l : Lineup) (ev : PackageEvent)
  | settingEvent (l : Lineup)
  /-- The evaluation that a watched package event leads to, asked for directly. -/
  | packageChanged (l : Lineup) (t : Trigger)
  /-- The evaluation that a change of the setting leads to, asked for directly. -/
  | settingChanged (l : Lineup)
  | notify (session : Session) (ev : LinkEvent)
  | shutdown

def operate (p : Ports κ ω) (s : Service κ ω) : Operation → Service κ ω
  | .systemReady l => s.systemReady l
  | .systemRunning l => (s.systemRunning p l).2
  | .userUnlocked l => (s.userUnlocked p l).2
  | .packageEvent l ev => (s.packageEvent p l ev).2
  | .settingEvent l => (s.settingEvent p l).2
  | .packageChanged l t => (s.packageChanged p l t).2
  | .settingChanged l => (s.evaluate p l).2
  | .notify session ev => (s.notify session ev).2
  | .shutdown => s.shutdown p

def operateAll (p : Ports κ ω) (s : Service κ ω) (ops : List Operation) : Service κ ω :=
  ops.foldl (operate p) s

/-- What every operation keeps, all of them keep. -/
theorem operateAll_keeps {P : Service κ ω → Prop} (hp : ∀ s op, P s → P (operate p s op)) (h : P s)
    (ops : List Operation) : P (operateAll p s ops) := by
  induction ops generalizing s with
  | nil => exact h
  | cons op ops ih => exact ih (hp s op h)

/-- The operation comes to an evaluation while an endpoint is wanted. -/
def Seeks (s : Service κ ω) : Operation → Prop
  | .systemRunning l | .userUnlocked l | .settingChanged l => l.endpoint.isSome
  | .packageChanged l t => t.package ∈ l.candidates ∧ l.endpoint.isSome
  | .packageEvent l ev =>
    (∃ t ∈ ev.triggers, t.package ∈ s.monitors.watched ∧ t.package ∈ l.candidates) ∧
      l.endpoint.isSome
  | .settingEvent l => s.monitors.observer.isSome ∧ l.endpoint.isSome
  | .systemReady _ | .notify _ _ | .shutdown => False

/-- The binder is asked for no bind, and at no time is anything held. -/
def Quiet (p : Ports κ ω) (s : Service κ ω) (ops : List Operation) : Prop :=
  (∀ e, .bind e ∉ (operateAll p.noted s.toNoted ops).notes) ∧
    ∀ done, done <+: ops → (operateAll p s done).link.state = .unbound

/-- No event is taken, none waits, and no bind has been confirmed. -/
def Deaf (k : Link ω) : Prop := k.running = false ∧ k.queue = [] ∧ k.state.isConnected = false

theorem stable_deaf (p : Ports κ ω) : Stable p Deaf where
  update _ _ _ _ h := h
  clear _ _ _ h := h
  disconnect k h := ⟨by simpa using h.1, by simpa using h.2.1, by simp [LinkState.isConnected]⟩
  request k e h := by
    obtain ⟨hr, hq, hc⟩ := h
    refine ⟨by simpa using hr, by simp [Link.request_eq, hr, hq], ?_⟩
    rw [Link.request_state]
    split
    · rfl
    · exact hc

/-- The operations that only ever evaluate keep what evaluations do. -/
theorem Stable.operate {P : Link ω → Prop} (hp : Stable p P)
    (hn : ∀ k n ev, P k → P (k.notify n ev).2) (hd : ∀ k, P k → P (k.shutdown p.binder))
    (h : P s.link) (op : Operation) : P (operate p s op).link := by
  cases op with
  | systemReady l => simpa only [Service.operate, systemReady_link] using h
  | systemRunning l => exact hp.bindTo h
  | userUnlocked l => exact hp.bindTo h
  | packageEvent l ev => exact hp.packageEvent h ev
  | settingEvent l => exact hp.settingEvent h
  | packageChanged l t => exact hp.packageChanged h
  | settingChanged l => exact hp.bindTo h
  | notify n ev => exact hn _ n ev h
  | shutdown => exact hd _ h

theorem prefix_operate (op : Operation) : s.link.calls <+: (operate p s op).link.calls := by
  refine (stable_extends p s.link.calls).operate ?_ ?_ List.prefix_rfl op
  · intro k n ev h
    unfold Link.notify
    split <;> exact h
  · intro k h
    exact (stable_extends p s.link.calls).disconnect k h

theorem prefix_operateAll (ops : List Operation) :
    s.link.calls <+: (operateAll p s ops).link.calls :=
  operateAll_keeps (P := fun s' => s.link.calls <+: s'.link.calls)
    (fun _ op h => h.trans (prefix_operate op)) List.prefix_rfl ops

theorem operate_seen {ω' : Type} {f : ω → ω'} {p' : Ports κ ω'} (h : p.Through f p')
    (op : Operation) (s : Service κ ω) : operate p' (s.seen f) op = (operate p s op).seen f := by
  cases op with
  | systemReady l => exact systemReady_seen f s
  | systemRunning l => exact congrArg Prod.snd (bindTo_seen h s)
  | userUnlocked l =>
    exact congrArg Prod.snd (bindTo_seen h
      { s with monitors := (s.monitors.registerPackages l.candidates ()).2 })
  | packageEvent l ev => exact congrArg Prod.snd (packageEvent_seen h ev s)
  | settingEvent l => exact settingEvent_seen h s
  | packageChanged l t => exact congrArg Prod.snd (packageChanged_seen h t s)
  | settingChanged l => exact congrArg Prod.snd (bindTo_seen h s)
  | notify n ev => exact congrArg Prod.snd (notify_seen f n ev s)
  | shutdown => exact shutdown_seen h s

theorem plain_operateAll (k : Service κ (Noted κ ω)) (ops : List Operation) :
    (operateAll p.noted k ops).plain = operateAll p k.plain ops := by
  induction ops generalizing k with
  | nil => rfl
  | cons op ops ih => exact (ih _).trans (by rw [plain, ← operate_seen p.through_noted]; rfl)

/-- What the log says of an operation is what the binder was asked in it. -/
theorem requests_operate {k : Service κ (Noted κ ω)} {old : List (PortCall κ)}
    (h : k.link.calls.map BinderCall.port = old ++ k.notes.filter PortCall.isRequest)
    (op : Operation) : (operate p.noted k op).link.calls.map BinderCall.port =
      old ++ (operate p.noted k op).notes.filter PortCall.isRequest := by
  refine (stable_requests p old).operate ?_ ?_ h op
  · intro k n ev h
    unfold Link.notify
    split <;> exact h
  · intro k h
    exact (stable_requests p old).disconnect k h

theorem requests_operateAll {k : Service κ (Noted κ ω)} {old : List (PortCall κ)}
    (h : k.link.calls.map BinderCall.port = old ++ k.notes.filter PortCall.isRequest)
    (ops : List Operation) : (operateAll p.noted k ops).link.calls.map BinderCall.port =
      old ++ (operateAll p.noted k ops).notes.filter PortCall.isRequest :=
  operateAll_keeps (P := fun k => k.link.calls.map BinderCall.port =
    old ++ k.notes.filter PortCall.isRequest) (fun _ op h => requests_operate h op) h ops

/-- The log goes on with what the binder has been asked. -/
theorem calls_operateAll (s : Service κ ω) (ops : List Operation) :
    (operateAll p s ops).link.calls.map BinderCall.port = s.link.calls.map BinderCall.port ++
      (operateAll p.noted s.toNoted ops).notes.filter PortCall.isRequest := by
  have hp := plain_operateAll (p := p) s.toNoted ops
  have hs : s.toNoted.plain = s := rfl
  rw [hs] at hp
  rw [← hp]
  exact requests_operateAll (k := s.toNoted) (by simp [toNoted, notes, seen, Link.seen]) ops

/-- A bind that the binder was asked for is one that the log goes on with. -/
theorem bind_mem_notes_iff {ops : List Operation} {new : List BinderCall}
    (h : s.link.calls ++ new = (operateAll p s ops).link.calls) :
    .bind e ∈ (operateAll p.noted s.toNoted ops).notes ↔ ∃ n v, .bind e n v ∈ new := by
  have hc := calls_operateAll (p := p) s ops
  rw [← h, List.map_append, List.append_cancel_left_eq] at hc
  have hf : PortCall.bind e ∈ (operateAll p.noted s.toNoted ops).notes ↔
      PortCall.bind e ∈ (operateAll p.noted s.toNoted ops).notes.filter PortCall.isRequest := by
    simp [PortCall.isRequest]
  rw [hf, ← hc, List.mem_map]
  constructor
  · rintro ⟨_ | _, hm, he⟩
    · cases he
      exact ⟨_, _, hm⟩
    · cases he
  · rintro ⟨n, v, hm⟩
    exact ⟨_, hm, rfl⟩

theorem deaf_shutdown : Deaf (s.shutdown p).link :=
  ⟨rfl, rfl, by simp [shutdown, Link.shutdown, LinkState.isConnected]⟩

theorem deaf_operate (h : Deaf s.link) (op : Operation) : Deaf (operate p s op).link := by
  refine (stable_deaf p).operate ?_ ?_ h op
  · intro k n ev h
    simpa [Link.notify, h.1] using h
  · intro k h
    exact ⟨rfl, rfl, by simp [Link.shutdown, LinkState.isConnected]⟩

theorem deaf_operateAll (h : Deaf s.link) (ops : List Operation) :
    Deaf (operateAll p s ops).link :=
  operateAll_keeps (P := fun s => Deaf s.link) (fun _ op h => deaf_operate h op) h ops

/-- Nothing is held, and the log is as given. -/
def Idle (calls : List BinderCall) (s : Service κ ω) : Prop :=
  s.link.state = .unbound ∧ s.link.calls = calls

variable {calls : List BinderCall}

theorem idle_release (h : Idle calls s) : Idle calls (release p s) := by
  refine ⟨release_state, ?_⟩
  rw [release_calls, Link.disconnect_of_unbound h.1]
  exact h.2

theorem idle_bindTo (h : Idle calls s) (hl : l.endpoint = none) :
    Idle calls (bindTo p l.active s).2 := by
  rw [bindTo_of_none hl]
  exact idle_release h

theorem idle_packageChanged (h : Idle calls s)
    (hs : ¬ (t.package ∈ l.candidates ∧ l.endpoint.isSome)) :
    Idle calls (packageChanged p l t s).2 := by
  by_cases ht : t.package ∈ l.candidates
  · have hl : l.endpoint = none := by simpa [ht] using hs
    rcases packageChanged_of_candidate (p := p) (s := s) ht with he | he <;> rw [he]
    · exact idle_bindTo h hl
    · exact idle_bindTo (idle_release h) hl
  · rwa [packageChanged_of_stranger ht]

theorem idle_operate (h : Idle calls s) {op : Operation} (hs : ¬ s.Seeks op) :
    Idle calls (operate p s op) := by
  cases op with
  | systemReady l => simpa only [Idle, operate, systemReady_link] using h
  | systemRunning l => exact idle_bindTo h (by simpa [Seeks] using hs)
  | userUnlocked l => exact idle_bindTo h (by simpa [Seeks] using hs)
  | packageEvent l ev =>
    refine packageEvent_keeps (fun t ht hw s' h' => idle_packageChanged h' fun hseek => hs ?_) h
    exact ⟨⟨t, ht, hw, hseek.1⟩, hseek.2⟩
  | settingEvent l =>
    simp only [operate, settingEvent_eq]
    split
    · rename_i ho
      exact idle_bindTo h (by simpa [Seeks, ho] using hs)
    · exact h
  | packageChanged l t => exact idle_packageChanged h hs
  | settingChanged l => exact idle_bindTo h (by simpa [Seeks] using hs)
  | notify n ev =>
    simp only [operate, notify, Link.notify]
    split <;> exact h
  | shutdown =>
    simp only [operate, shutdown, Link.shutdown, Link.disconnect_of_unbound h.1]
    exact h

/-- The log goes on with a bind. -/
def Asks (calls : List BinderCall) (s : Service κ ω) : Prop :=
  ∃ e n v, calls ++ [.bind e n v] <+: s.link.calls

theorem asks_bindTo (h : Idle calls s) (hl : l.endpoint = some e) :
    Asks calls (bindTo p l.active s).2 := by
  rw [bindTo_of_unbound hl h.1]
  refine ⟨e, s.link.session + 1, (Link.answer p.binder e s.link).verdict, [], ?_⟩
  rw [List.append_nil, Link.request_calls, h.2]

theorem asks_packageChanged (h : Idle calls s) (ht : t.package ∈ l.candidates)
    (hl : l.endpoint = some e) : Asks calls (packageChanged p l t s).2 := by
  rcases packageChanged_of_candidate (p := p) (s := s) ht with he | he <;> rw [he]
  · exact asks_bindTo h hl
  · exact asks_bindTo (idle_release h) hl

theorem asks_extend {s' : Service κ ω} (h : Asks calls s) (hp : s.link.calls <+: s'.link.calls) :
    Asks calls s' := by
  obtain ⟨e, n, v, h⟩ := h
  exact ⟨e, n, v, h.trans hp⟩

theorem asks_callAll (h : Idle calls s) (hl : l.endpoint = some e) {ts : List Trigger}
    (ht : ∃ t ∈ ts, t.package ∈ l.candidates) (n : Nat) :
    Asks calls (PackageMonitor.callAll (packageChanged p l) ts n s).2 := by
  induction ts generalizing n with
  | nil => simp at ht
  | cons t ts ih =>
    by_cases hc : t.package ∈ l.candidates
    · have ha := asks_packageChanged (p := p) h hc hl
      unfold PackageMonitor.callAll
      split <;> rename_i heq <;> rw [heq] at ha
      · refine callAll_keeps (fun t' _ s' h' => asks_extend h' ?_) _ ha
        exact (stable_extends p _).packageChanged List.prefix_rfl
      · exact ha
    · have hts : ∃ t ∈ ts, t.package ∈ l.candidates := by simpa [hc] using ht
      simp only [PackageMonitor.callAll, packageChanged_of_stranger hc]
      exact ih hts (n + 1)

theorem asks_operate (h : Idle calls s) {op : Operation} (hs : s.Seeks op) :
    Asks calls (operate p s op) := by
  cases op with
  | systemReady l => exact hs.elim
  | systemRunning l => exact (Option.isSome_iff_exists.mp hs).elim fun e he => asks_bindTo h he
  | userUnlocked l => exact (Option.isSome_iff_exists.mp hs).elim fun e he => asks_bindTo h he
  | packageEvent l ev =>
    obtain ⟨⟨t, ht, hw, hc⟩, hl⟩ := hs
    obtain ⟨e, he⟩ := Option.isSome_iff_exists.mp hl
    cases hm : s.monitors.packages with
    | none => simp [Monitors.watched, hm] at hw
    | some m =>
      simp only [operate, packageEvent_of_watched hm]
      refine asks_callAll h he ⟨t, ?_, hc⟩ 0
      simpa [PackageMonitor.relevant, PackageMonitor.watches, ht, Monitors.watched, hm] using hw
  | settingEvent l =>
    obtain ⟨ho, hl⟩ := hs
    obtain ⟨e, he⟩ := Option.isSome_iff_exists.mp hl
    simp only [operate, settingEvent_eq, ho, if_true]
    exact asks_bindTo h he
  | packageChanged l t =>
    obtain ⟨e, he⟩ := Option.isSome_iff_exists.mp hs.2
    exact asks_packageChanged h hs.1 he
  | settingChanged l => exact (Option.isSome_iff_exists.mp hs).elim fun e he => asks_bindTo h he
  | notify n ev => exact hs.elim
  | shutdown => exact hs.elim

theorem operateAll_append (ops ops' : List Operation) :
    operateAll p s (ops ++ ops') = operateAll p (operateAll p s ops) ops' := by
  simp [operateAll]

theorem idle_operateAll (h : Idle calls s) {ops : List Operation}
    (hs : ∀ done op, done ++ [op] <+: ops → ¬ (operateAll p s done).Seeks op) :
    Idle calls (operateAll p s ops) := by
  induction ops using List.reverseRecOn with
  | nil => exact h
  | append_singleton ops op ih =>
    rw [operateAll_append]
    apply idle_operate
    · exact ih fun done op' hd => hs done op' (hd.trans (List.prefix_append _ _))
    · exact hs ops op List.prefix_rfl

theorem asks_not_quiet {ops done : List Operation} {op : Operation} (h : Quiet p s ops)
    (hd : done ++ [op] <+: ops) : ¬ (operateAll p s done).Seeks op := by
  intro hs
  have hu := h.2 done ((List.prefix_append _ _).trans hd)
  obtain ⟨e, n, v, ha⟩ := asks_operate (p := p) ⟨hu, rfl⟩ hs
  obtain ⟨rest, rfl⟩ := hd
  obtain ⟨old, hold⟩ := prefix_operateAll (p := p) (s := s) done
  obtain ⟨new, hnew⟩ := ha.trans (prefix_operateAll (p := p) rest)
  apply h.1 e
  have hlog : s.link.calls ++ (old ++ [.bind e n v] ++ new) =
      (operateAll p s (done ++ [op] ++ rest)).link.calls := by
    rw [operateAll_append, operateAll_append, ← List.append_assoc, ← List.append_assoc, hold]
    exact hnew
  rw [bind_mem_notes_iff hlog]
  exact ⟨n, v, by simp⟩

/-- A service that holds nothing stays quiet exactly as long as no operation seeks a link. -/
theorem quiet_iff (hu : s.link.state = .unbound) (ops : List Operation) :
    Quiet p s ops ↔ ∀ done op, done ++ [op] <+: ops → ¬ (operateAll p s done).Seeks op := by
  constructor
  · intro h done op hd
    exact asks_not_quiet h hd
  · intro h
    have hi : ∀ done, done <+: ops → Idle s.link.calls (operateAll p s done) := fun done hd =>
      idle_operateAll ⟨hu, rfl⟩ fun d op hop => h d op (hop.trans hd)
    constructor
    · intro e
      have hlog : s.link.calls ++ [] = (operateAll p s ops).link.calls := by
        rw [List.append_nil, (hi ops List.prefix_rfl).2]
      rw [bind_mem_notes_iff hlog]
      simp
    · intro done hd
      exact (hi done hd).1

theorem shutdown_state : (s.shutdown p).link.state = .unbound := by
  simp [shutdown, Link.shutdown]

/-- After a shutdown the binder is asked for no bind and nothing is held exactly as long as no operation
evaluates while an endpoint is wanted, directly or through monitors registered anew. A link that is made all
the same is never confirmed. The requests that are noted are those of the log, and to note them changes
nothing. -/
theorem quiet_after_shutdown_iff (p : Ports κ ω) (s : Service κ ω) (ops : List Operation) :
    let down := s.shutdown p
    let noted := operateAll p.noted down.toNoted ops
    let after := operateAll p down ops
    (Quiet p down ops ↔
      ∀ done op, done ++ [op] <+: ops → ¬ (operateAll p down done).Seeks op) ∧
      after.link.running = false ∧
      after.link.state.isConnected = false ∧
      after.link.calls.map BinderCall.port =
        down.link.calls.map BinderCall.port ++ noted.notes.filter PortCall.isRequest ∧
      noted.plain = after := by
  intro down noted after
  have hd := deaf_operateAll (p := p) (deaf_shutdown (p := p) (s := s)) ops
  exact ⟨quiet_iff shutdown_state ops, hd.1, hd.2.2, calls_operateAll down ops,
    plain_operateAll down.toNoted ops⟩

/-- A service that is shut down and then told that the system runs asks its binder for a bind. -/
theorem bind_after_shutdown :
    let l : Lineup := ⟨some ⟨"scorer", 10000, some "Service"⟩, ["scorer"]⟩
    let s : Service Scripted.CacheScript Scripted.World := { link := { world := { binder := {} } } }
    let down := (operateAll Scripted.ports s [.systemReady l, .systemRunning l]).shutdown Scripted.ports
    (operateAll Scripted.ports.noted down.toNoted [.systemRunning l]).notes =
        [.bind ⟨"scorer", "Service"⟩] ∧
      ¬ Quiet Scripted.ports down [.systemRunning l] := by
  intro l s down
  have hasked : (operateAll Scripted.ports.noted down.toNoted [.systemRunning l]).notes =
      [.bind ⟨"scorer", "Service"⟩] := rfl
  refine ⟨hasked, fun h => h.1 ⟨"scorer", "Service"⟩ ?_⟩
  rw [hasked]
  exact List.mem_singleton_self _

end ScoreRelay.Service
