import ScoreRelay.Agent.Basic
import ScoreRelay.Proofs.Roster.Notices
import ScoreRelay.Proofs.Service.Dump
import ScoreRelay.Scripted.Binder

/-! Who may do what to a service. A caller that may not is turned away with everything left as it was,
and one that may gets what it would get without the check; so a caller that is neither in charge nor
manages who is cannot get at the registered caches. -/
namespace ScoreRelay.Access

/-- An operation that checks its caller. -/
inductive Operation (κ : Type) where
  | updateScores (networks : List ScoredNetwork)
  | clearScores
  | setActiveScorer (package : String)
  | disableScoring
  | register (reg : Registration κ)
  | unregister (networkType : NetworkType) (id : String)
  | dump

/-- A service with the roster that it goes by, and the sink that its accounts are written to. -/
structure Site (κ ω : Type) where
  roster : Roster
  service : Service κ ω
  sink : Sink

/-- What comes back: a fault, or else a flag from those operations that give one. -/
abbrev Result := Except Fault (Option Bool)

variable {κ ω γ : Type} {p : Ports κ ω} {c : Caller} {d : Site κ ω} {op : Operation κ}

/-- An operation as a caller reaches it. -/
def perform (p : Ports κ ω) (c : Caller) (d : Site κ ω) : Operation κ → Result × Site κ ω
  | .updateScores networks =>
    let (r, s) := Access.updateScores p d.roster.lineup c networks d.service
    (r.map some, { d with service := s })
  | .clearScores =>
    let (r, s) := Access.clearScores p d.roster.lineup c d.service
    (r.map some, { d with service := s })
  | .setActiveScorer package =>
    let (r, s) := Access.setActiveScorer c package d.service
    (r.map some, { d with service := s })
  | .disableScoring =>
    let (r, s) := Access.disableScoring d.roster.lineup c d.service
    (r.map fun _ => none, { d with service := s })
  | .register reg =>
    let (r, s) := Access.register c reg d.service
    (r.map fun _ => none, { d with service := s })
  | .unregister t id =>
    let (r, s) := Access.unregister c t id d.service
    (r.map fun _ => none, { d with service := s })
  | .dump =>
    let (r, sink, s) := Access.dump p d.roster.lineup c d.sink d.service
    (r.map fun _ => none, { d with sink := sink, service := s })

/-- What the service does over an operation, whoever asks. -/
def bare (p : Ports κ ω) (d : Site κ ω) : Operation κ → Result × Site κ ω
  | .updateScores networks => (.ok (some true), { d with service := d.service.updateScores p networks })
  | .clearScores => (.ok (some true), { d with service := d.service.clearScores p })
  | .setActiveScorer package => (.ok (some (ScoreRelay.setActiveScorer package)), d)
  | .disableScoring => (.ok none, d)
  | .register reg => (.ok none, { d with service := (d.service.register reg).2 })
  | .unregister t id => (.ok none, { d with service := (d.service.unregister t id).2 })
  | .dump =>
    let (written, sink, s) := d.service.dump p d.roster.lineup d.sink
    (if written then .ok none else .error (.io Sink.fullText), { d with sink := sink, service := s })

/-- The uid of the caller is that of the scorer in charge. -/
def InCharge (r : Roster) (c : Caller) : Prop := ∃ s, r.active = some s ∧ s.uid = c.uid

instance (r : Roster) (c : Caller) : Decidable (InCharge r c) :=
  decidable_of_iff (r.lineup.isActive c.uid = true) Roster.isActive_iff

/-- Who may do what. Bringing scores takes being in charge, which no privilege makes up for. -/
def Allowed (r : Roster) (c : Caller) : Operation κ → Prop
  | .updateScores _ => InCharge r c
  | .clearScores | .disableScoring => InCharge r c ∨ .broadcastNetworkPrivileged ∈ c.privileges
  | .register _ | .unregister _ _ => .broadcastNetworkPrivileged ∈ c.privileges
  | .setActiveScorer _ => .scoreNetworks ∈ c.privileges
  | .dump => .dump ∈ c.privileges

/-- The check that an operation begins with. -/
def check (r : Roster) (c : Caller) : Operation κ → Except Denial Unit
  | .updateScores _ => asScorer r.lineup c
  | .clearScores | .disableScoring => asScorerOrManager r.lineup c
  | .register _ | .unregister _ _ => withPrivilege .broadcastNetworkPrivileged c
  | .setActiveScorer _ => withPrivilege .scoreNetworks c
  | .dump => withPrivilege .dump c

/-- Every operation is its check, and then the bare one or nothing. -/
theorem perform_eq (p : Ports κ ω) (c : Caller) (d : Site κ ω) (op : Operation κ) :
    perform p c d op = match check d.roster c op with
      | .ok () => bare p d op
      | .error denial => (.error denial.fault, d) := by
  cases op with
  | updateScores networks =>
    simp only [perform, check, Access.updateScores, guarded]
    cases asScorer d.roster.lineup c <;> rfl
  | clearScores =>
    simp only [perform, check, Access.clearScores, guarded]
    cases asScorerOrManager d.roster.lineup c <;> rfl
  | setActiveScorer package =>
    simp only [perform, check, Access.setActiveScorer, guarded]
    cases withPrivilege .scoreNetworks c <;> rfl
  | disableScoring =>
    simp only [perform, check, Access.disableScoring, guarded]
    cases asScorerOrManager d.roster.lineup c <;> rfl
  | register reg =>
    simp only [perform, check, Access.register, guarded]
    cases withPrivilege .broadcastNetworkPrivileged c <;> rfl
  | unregister t id =>
    simp only [perform, check, Access.unregister, guarded]
    cases withPrivilege .broadcastNetworkPrivileged c <;> rfl
  | dump =>
    simp only [perform, check, bare, Access.dump]
    cases withPrivilege .dump c with
    | error denial => rfl
    | ok u =>
      obtain ⟨written, sink, s⟩ := d.service.dump p d.roster.lineup d.sink
      cases written <;> rfl

theorem withPrivilege_eq_ok {q : Privilege} : withPrivilege q c = .ok () ↔ q ∈ c.privileges := by
  unfold withPrivilege Caller.holds
  by_cases h : q ∈ c.privileges <;> simp [h]

theorem asScorer_eq_ok {r : Roster} : asScorer r.lineup c = .ok () ↔ InCharge r c := by
  unfold asScorer InCharge
  rw [← Roster.isActive_iff]
  cases r.lineup.isActive c.uid <;> simp

theorem asScorerOrManager_eq_ok {r : Roster} : asScorerOrManager r.lineup c = .ok () ↔
    InCharge r c ∨ .broadcastNetworkPrivileged ∈ c.privileges := by
  unfold asScorerOrManager InCharge Caller.holds
  rw [← Roster.isActive_iff]
  cases r.lineup.isActive c.uid <;>
    by_cases h : .broadcastNetworkPrivileged ∈ c.privileges <;> simp [h]

theorem check_eq_ok {r : Roster} : check r c op = .ok () ↔ Allowed r c op := by
  cases op with
  | updateScores _ => exact asScorer_eq_ok
  | clearScores => exact asScorerOrManager_eq_ok
  | disableScoring => exact asScorerOrManager_eq_ok
  | _ => exact withPrivilege_eq_ok

theorem perform_of_allowed (h : Allowed d.roster c op) : perform p c d op = bare p d op := by
  rw [perform_eq, check_eq_ok.mpr h]

theorem perform_of_not_allowed (h : ¬ Allowed d.roster c op) :
    ∃ text, perform p c d op = (.error (.permissionDenied text), d) := by
  rw [perform_eq]
  cases hc : check d.roster c op with
  | ok u => exact absurd (check_eq_ok.mp hc) h
  | error denial => exact ⟨denial.message, rfl⟩

/-- The service itself turns nobody away. -/
theorem bare_ne_denied (text : String) : (bare p d op).1 ≠ .error (.permissionDenied text) := by
  cases op with
  | dump =>
    simp only [bare]
    split <;> simp
  | _ => simp [bare]

/-- Something that happens at a site: the roster is told something, or a caller asks for an operation. -/
inductive Event (κ : Type) where
  | notice (n : Notice)
  | call (caller : Caller) (op : Operation κ)

def step (p : Ports κ ω) (d : Site κ ω) : Event κ → Site κ ω
  | .notice n => { d with roster := d.roster.heed n }
  | .call c op => (perform p c d op).2

def run (p : Ports κ ω) (d : Site κ ω) (es : List (Event κ)) : Site κ ω := es.foldl (step p) d

/-- All calls are by callers that are not in charge when they call, and that do not manage who is. -/
def Outsiders (r : Roster) : List (Event κ) → Prop
  | [] => True
  | .notice n :: es => Outsiders (r.heed n) es
  | .call c _ :: es =>
    ¬ InCharge r c ∧ .broadcastNetworkPrivileged ∉ c.privileges ∧ Outsiders r es

/-- Two sites that differ in no more than the sink and the world, and agree on what is seen of that. -/
def Alike (view : ω → γ) (d d' : Site κ ω) : Prop :=
  d'.roster = d.roster ∧ ∃ w, view w = view d.service.link.world ∧
    d'.service = { d.service with link := { d.service.link with world := w } }

variable {view : ω → γ}

theorem alike_refl (d : Site κ ω) : Alike view d d := ⟨rfl, d.service.link.world, rfl, rfl⟩

/-- An outsider gets no further than an account, which the caches write without changing. -/
theorem alike_perform (hv : ∀ reg w, view (p.caches.dump reg w).2 = view w)
    (hc : ¬ InCharge d.roster c) (hm : .broadcastNetworkPrivileged ∉ c.privileges)
    (op : Operation κ) : Alike view d (perform p c d op).2 := by
  by_cases ha : Allowed d.roster c op
  · rw [perform_of_allowed ha]
    cases op with
    | updateScores networks => exact absurd ha hc
    | clearScores => exact absurd ha (not_or.mpr ⟨hc, hm⟩)
    | disableScoring => exact alike_refl d
    | setActiveScorer package => exact alike_refl d
    | register reg => exact absurd ha hm
    | unregister t id => exact absurd ha hm
    | dump =>
      refine ⟨rfl, ?_⟩
      exact Service.dump_service (P := fun w => view w = view d.service.link.world)
        (fun reg w hw => (hv reg w).trans hw) rfl d.roster.lineup d.sink
  · obtain ⟨text, hd⟩ := perform_of_not_allowed (p := p) ha
    rw [hd]
    exact alike_refl d

theorem run_of_outsiders (hv : ∀ reg w, view (p.caches.dump reg w).2 = view w)
    (es : List (Event κ)) (ho : Outsiders d.roster es) :
    ∃ w, view w = view d.service.link.world ∧
      (run p d es).service = { d.service with link := { d.service.link with world := w } } := by
  induction es generalizing d with
  | nil => exact ⟨d.service.link.world, rfl, rfl⟩
  | cons e es ih =>
    cases e with
    | notice n => exact ih (d := { d with roster := d.roster.heed n }) ho
    | call c op =>
      obtain ⟨hc, hm, ho⟩ := ho
      obtain ⟨hr, w, hw, hs⟩ := alike_perform hv hc hm op
      obtain ⟨w', hw', hs'⟩ := ih (d := (perform p c d op).2) (hr ▸ ho)
      rw [hs] at hw' hs'
      exact ⟨w', hw'.trans hw, hs'⟩

/-- The checks are complete. A caller that may do what it asks for gets the bare operation, and any other is
denied it with nothing changed; nobody else is denied. So whatever outsiders call for, while others come in
charge between their calls, the registry and all that the caches keep end as they began. -/
theorem caller_checks_complete (p : Ports κ ω) :
    (∀ (d : Site κ ω) (c : Caller) (op : Operation κ),
      (Allowed d.roster c op → perform p c d op = bare p d op) ∧
      (¬ Allowed d.roster c op →
        ∃ text, perform p c d op = (.error (.permissionDenied text), d)) ∧
      (Allowed d.roster c op ↔
        ∀ text, (perform p c d op).1 ≠ .error (.permissionDenied text))) ∧
    ∀ {γ : Type} (view : ω → γ), (∀ reg w, view (p.caches.dump reg w).2 = view w) →
      ∀ (d : Site κ ω) (es : List (Event κ)), Outsiders d.roster es →
        (run p d es).service.registry = d.service.registry ∧
        view (run p d es).service.link.world = view d.service.link.world := by
  refine ⟨fun d c op => ⟨perform_of_allowed, perform_of_not_allowed, fun ha text => ?_, fun hn => ?_⟩,
    ?_⟩
  · rw [perform_of_allowed ha]
    exact bare_ne_denied text
  · by_contra ha
    obtain ⟨text, hd⟩ := perform_of_not_allowed (p := p) ha
    exact hn text (by rw [hd])
  · intro γ view hv d es ho
    obtain ⟨w, hw, hs⟩ := run_of_outsiders hv es ho
    rw [hs]
    exact ⟨rfl, hw⟩

section Replaced

/-- A cache that holds a score. -/
def filled : MemoryCache where
  id := "cache"
  networkType := .wifi
  filter := .none
  scores := [⟨⟨.wifi, "n"⟩, 7, false⟩]

/-- Two providers, of which the first has brought a score. -/
def manned : Site Nat (Agent.World Scripted.BinderScript) where
  roster := ⟨[⟨"a", 10000, some "S", none, true⟩, ⟨"b", 10001, some "S", none, true⟩], true⟩
  service :=
    { registry := (({} : Registry Nat).register ⟨.wifi, "cache", .none, 0⟩).2
      link := { world := ⟨{}, [filled]⟩ } }
  sink := {}

/-- The second provider tries before its time, and the first when it has been removed. -/
def attempts : List (Event Nat) :=
  [.call ⟨10001, [.scoreNetworks, .dump, .dump]⟩ .clearScores,
    .call ⟨10001, [.scoreNetworks]⟩ (.setActiveScorer "b"),
    .notice (.installed "a" false),
    .call ⟨10000, [.dump]⟩ (.updateScores [⟨⟨.wifi, "n"⟩, 9, false⟩]),
    .call ⟨10000, [.dump]⟩ .dump,
    .call ⟨10000, []⟩ (.unregister .wifi "cache")]

theorem caller_checks_complete_replaced :
    (InCharge manned.roster ⟨10000, []⟩ ∧
      perform (Agent.ports Scripted.binder) ⟨10000, []⟩ manned .clearScores =
        bare (Agent.ports Scripted.binder) manned .clearScores) ∧
    Outsiders manned.roster attempts ∧
      (run (Agent.ports Scripted.binder) manned attempts).service.registry =
        manned.service.registry ∧
      (run (Agent.ports Scripted.binder) manned attempts).service.link.world.caches =
        manned.service.link.world.caches := by
  have hc : InCharge manned.roster ⟨10000, []⟩ := by decide +kernel
  have ho : Outsiders manned.roster attempts := by
    refine ⟨?_, ?_, ?_, ?_, ?_, ?_, ?_, ?_, ?_, ?_, trivial⟩ <;> decide +kernel
  obtain ⟨hchecks, hruns⟩ := caller_checks_complete (Agent.ports Scripted.binder)
  exact ⟨⟨hc, (hchecks manned _ _).1 (Or.inl hc)⟩, ho,
    hruns Agent.World.caches (fun _ _ => rfl) manned attempts ho⟩

end Replaced

end ScoreRelay.Access
