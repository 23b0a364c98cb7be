import ScoreRelay.Agent.Control
import ScoreRelay.Proofs.Roster.Active
import ScoreRelay.Proofs.Service.Dump
import ScoreRelay.Proofs.Service.Evaluation
import ScoreRelay.Proofs.Wire.RoundTrip

/-! Runs of an agent. A line that holds a request changes the roster, and then the service with the lineup
that comes of it; nothing else gets further than the link. -/
namespace ScoreRelay

/-- The roster once a request has told what it knows of it. -/
def Request.amend : Request → Roster → Roster
  | .packageEvent e, r =>
    match e.installs with
    | some (package, installed) => r.setInstalled package installed
    | none => r
  | .settingChanged c, r => r.setEnabled c.enabled
  | _, r => r

@[simp] theorem Roster.candidates_amend {r : Roster} {q : Request} :
    (q.amend r).candidates = r.candidates := by
  cases q with
  | packageEvent e =>
    simp only [Request.amend]
    split
    · exact Roster.candidates_setInstalled _ _
    · rfl
  | _ => rfl

namespace Agent

variable {σ : Type} {b : Binder σ} {a : Agent σ} {q : Request}

/-- Something that reaches an agent: a line, an event reported under the session of a bind, or the turn of
the worker to take up the oldest event that waits. -/
inductive Input where
  | line (text : String)
  | report (session : Session) (event : LinkEvent)
  | work

/-- The request in a line. -/
def Input.request? : Input → Option Request
  | .line text => (Envelope.ofText? text).bind fun e => (Request.ofEnvelope e).toOption
  | .report _ _ | .work => none

def step (b : Binder σ) (a : Agent σ) : Input → Agent σ
  | .line text => (a.handleLine b text).2
  | .report session event => (a.notify session event).2
  | .work => { a with service := { a.service with link := a.service.link.deliver } }

def run (b : Binder σ) (a : Agent σ) (xs : List Input) : Agent σ := xs.foldl (step b) a

/-- An agent at work, before anything has reached it. -/
def started (b : Binder σ) (c : Config) (name : Nat → String) (w : σ) : Agent σ :=
  ((fresh c name w).start b).2

/-- Change every cache that a service reaches. -/
def recache (f : MemoryCache → MemoryCache) (s : Service Nat (World σ)) : Service Nat (World σ) :=
  let world := { s.link.world with caches := s.link.world.caches.map f }
  { s with link := { s.link with world := world } }

/-- What becomes of the service on a request, given the lineup that it leads to. -/
def effect (b : Binder σ) (q : Request) (l : Lineup) (s : Service Nat (World σ)) :
    Service Nat (World σ) :=
  match q with
  | .packageEvent e => (s.packageEvent (ports b) l e).2
  | .settingChanged _ => (s.settingEvent (ports b) l).2
  | .userUnlocked _ => (s.userUnlocked (ports b) l).2
  | .scoresUpdate u => if l.isActive u.caller.uid then s.updateScores (ports b) u.networks else s
  | .scoresClear c =>
    if l.isActive c.caller.uid || c.caller.holds .broadcastNetworkPrivileged then
      s.clearScores (ports b)
    else s
  | .networkCurrent n =>
    recache (fun c => c.setCurrent (n.network.filter (·.networkType = c.networkType))) s
  | .networkScan n =>
    recache (fun c => c.setScan (n.networks.filter (·.networkType = c.networkType))) s
  | .scoresRequest _ | .recommendation _ | .dump _ | .cachesList => s

theorem answer_agent {α : Type} (o : Outcome α × Service Nat (World σ)) (data : α → Json) :
    (answer o a data).2 = { a with service := o.2 } := by
  rcases o with ⟨_ | _, s⟩ <;> rfl

/-- A cache writes its account without changing anything. -/
theorem dump_keeps (l : Lineup) (sink : Sink) (s : Service Nat (World σ)) :
    (s.dump (ports b) l sink).2.2 = s := by
  have hp : ∀ (reg : Registration Nat) (w : World σ), w = s.link.world →
      ((ports b).caches.dump reg w).2 = s.link.world := fun _ _ hw => hw
  obtain ⟨w, rfl, hs⟩ := Service.dump_service (p := ports b) hp rfl l sink
  exact hs

theorem access_dump_service (l : Lineup) (c : Caller) (sink : Sink) (s : Service Nat (World σ)) :
    (Access.dump (ports b) l c sink s).2.2 = s := by
  have hs := dump_keeps (b := b) l sink s
  unfold Access.dump
  split
  · rfl
  · split <;> rename_i heq <;> rwa [heq] at hs

theorem guarded_service {α : Type} {p : Prop} [Decidable p] (d : Denial)
    (act : Service Nat (World σ) → Except Fault α × Service Nat (World σ))
    (s : Service Nat (World σ)) :
    (Access.guarded (if p then .ok () else .error d) act s).2 = if p then (act s).2 else s := by
  split <;> rfl

/-- A request in one piece. -/
theorem perform_agent : (perform b q a).2 =
    ⟨q.amend a.roster, effect b q (q.amend a.roster).lineup a.service⟩ := by
  cases q with
  | packageEvent e =>
    simp only [perform, answer_agent, Request.amend, effect]
    cases e.installs <;> rfl
  | settingChanged c =>
    simp only [perform, answer_agent]
    rfl
  | userUnlocked u =>
    simp only [perform, answer_agent]
    rfl
  | scoresUpdate u =>
    simp only [perform, checked, Access.updateScores, Access.asScorer, guarded_service]
    rfl
  | scoresClear c =>
    simp only [perform, checked, Access.clearScores, Access.asScorerOrManager, guarded_service]
    rfl
  | dump c =>
    simp only [perform, checked, access_dump_service]
    rfl
  | _ => rfl

/-- A message that is written out is read again, and asks for what its type and payload say. -/
theorem request_line {e : Envelope} (h : e.payload.Fits (Json.maxLevels - 1)) :
    (Input.line e.json.text).request? = (Request.ofEnvelope e).toOption := by
  rw [Input.request?, Envelope.ofText?_text h, Option.bind_some]

/-- The message and its request, if a line holds one. -/
theorem request_of_line {text : String} (h : (Input.line text).request? = some q) :
    ∃ e, Envelope.ofText? text = some e ∧ Request.ofEnvelope e = .ok q := by
  obtain ⟨e, he, hq⟩ := Option.bind_eq_some_iff.mp h
  refine ⟨e, he, ?_⟩
  cases hr : Request.ofEnvelope e with
  | error u => simp [hr, Except.toOption] at hq
  | ok q' => simpa [hr, Except.toOption] using hq

theorem step_of_request {x : Input} (h : x.request? = some q) :
    step b a x = ⟨q.amend a.roster, effect b q (q.amend a.roster).lineup a.service⟩ := by
  rw [← perform_agent]
  cases x with
  | line text =>
    obtain ⟨e, he, hq⟩ := request_of_line h
    simp only [step, handleLine, he, handle, hq]
    split <;> rename_i heq <;> rw [heq]
  | report session event => contradiction
  | work => contradiction

/-- A line without a request changes nothing. -/
theorem step_of_no_message {text : String} (h : (Input.line text).request? = none) :
    step b a (.line text) = a := by
  simp only [step, handleLine]
  cases he : Envelope.ofText? text with
  | none => rfl
  | some e =>
    cases hr : Request.ofEnvelope e with
    | error u => simp only [handle, hr]
    | ok q => simp [Input.request?, he, hr, Except.toOption] at h

/-- What is no request reaches the link alone, and there no more than the queue and what is known of the
bind that is held. -/
theorem step_of_no_request {x : Input} (h : x.request? = none) :
    ∃ state queue, state.endpoint = a.service.link.state.endpoint ∧
      step b a x = { a with service := { a.service with
        link := { a.service.link with state := state, queue := queue } } } := by
  cases x with
  | line text =>
    exact ⟨a.service.link.state, a.service.link.queue, rfl, step_of_no_message h⟩
  | report session event =>
    simp only [step, notify, Service.notify, Link.notify]
    split
    · exact ⟨_, _, rfl, rfl⟩
    · exact ⟨a.service.link.state, a.service.link.queue, rfl, rfl⟩
  | work =>
    simp only [step, Link.deliver]
    split
    · exact ⟨a.service.link.state, a.service.link.queue, rfl, rfl⟩
    · split
      · exact ⟨_, _, LinkState.endpoint_after _ _, rfl⟩
      · exact ⟨a.service.link.state, _, rfl, rfl⟩

theorem run_singleton (x : Input) : run b a [x] = step b a x := rfl

@[simp] theorem run_snoc (xs : List Input) (x : Input) :
    run b a (xs ++ [x]) = step b (run b a xs) x := by
  simp [run]

/-- What every step keeps, a run keeps. -/
theorem run_keeps {P : Agent σ → Prop} (hp : ∀ a x, P a → P (step b a x)) (h : P a)
    (xs : List Input) : P (run b a xs) := by
  induction xs generalizing a with
  | nil => exact h
  | cons x xs ih => exact ih (hp a x h)

end Agent

end ScoreRelay
