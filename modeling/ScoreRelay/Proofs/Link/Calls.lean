import ScoreRelay.Link

/-! What the calls of a link do to its state, its sessions, its queue and its log. -/
namespace ScoreRelay

variable {ω : Type} {b : Binder ω} {e : Endpoint} {l : Link ω} {n : Session}

namespace LinkState

@[simp] theorem endpoint_eq_none_iff {s : LinkState} : s.endpoint = none ↔ s = .unbound := by
  cases s <;> simp [endpoint]

theorem after_of_endpoint {s : LinkState} (h : s.endpoint = some e) (ev : LinkEvent) :
    s.after ev = match ev with | .connected => .connected e | .disconnected => .binding e := by
  cases s <;> cases ev <;> simp_all [endpoint, after]

end LinkState

namespace Link

theorem disconnect_of_unbound (h : l.state = .unbound) : l.disconnect b = (false, l) := by
  simp [disconnect, h, LinkState.endpoint]

theorem disconnect_of_bound (h : l.state.endpoint = some e) :
    l.disconnect b = (true, { l with
      state := .unbound
      session := l.session + 1
      world := (b.unbind e l.world).2
      calls := l.calls ++ [.unbind e] }) := by
  simp [disconnect, h]

/-- All that a release can come to. -/
theorem disconnect_cases (b : Binder ω) (l : Link ω) :
    (l.state = .unbound ∧ l.disconnect b = (false, l)) ∨
      ∃ e, l.state.endpoint = some e ∧ l.disconnect b = (true, { l with
        state := .unbound
        session := l.session + 1
        world := (b.unbind e l.world).2
        calls := l.calls ++ [.unbind e] }) := by
  cases h : l.state.endpoint with
  | none =>
    have hu : l.state = .unbound := by simpa using h
    exact Or.inl ⟨hu, disconnect_of_unbound hu⟩
  | some e => exact Or.inr ⟨e, rfl, disconnect_of_bound h⟩

@[simp] theorem disconnect_state : (l.disconnect b).2.state = .unbound := by
  rcases disconnect_cases b l with ⟨hu, hd⟩ | ⟨e, -, hd⟩ <;> rw [hd]
  exact hu

@[simp] theorem disconnect_queue : (l.disconnect b).2.queue = l.queue := by
  rcases disconnect_cases b l with ⟨-, hd⟩ | ⟨e, -, hd⟩ <;> rw [hd]

@[simp] theorem disconnect_running : (l.disconnect b).2.running = l.running := by
  rcases disconnect_cases b l with ⟨-, hd⟩ | ⟨e, -, hd⟩ <;> rw [hd]

theorem prefix_disconnect : l.calls <+: (l.disconnect b).2.calls := by
  rcases disconnect_cases b l with ⟨-, hd⟩ | ⟨e, -, hd⟩
  · simp only [hd, List.prefix_rfl]
  · simp only [hd, List.prefix_append]

/-- The binder's answer if it were asked for a bind now. -/
def answer (b : Binder ω) (e : Endpoint) (l : Link ω) : BindAnswer :=
  (b.bind e (l.session + 1) l.world).1

/-- A request in one piece: the answer is noted whatever it is, and moves the state if it is good. -/
theorem request_eq : request b e l =
    (match (answer b e l).verdict with
      | .accepted => .bindRequested
      | .refused reason => .failed reason
      | .crashed => .crashed,
    { l with
      state := if (answer b e l).verdict = .accepted then .binding e else l.state
      session := l.session + 1
      queue := if l.running then l.queue ++ (answer b e l).early else l.queue
      world := (b.bind e (l.session + 1) l.world).2
      calls := l.calls ++ [.bind e (l.session + 1) (answer b e l).verdict] }) := by
  unfold request
  cases hv : (answer b e l).verdict <;> simp [answer] at hv ⊢ <;> simp [hv]

theorem request_state : (request b e l).2.state =
    if (answer b e l).verdict = .accepted then .binding e else l.state := by rw [request_eq]

@[simp] theorem request_session : (request b e l).2.session = l.session + 1 := by rw [request_eq]

@[simp] theorem request_running : (request b e l).2.running = l.running := by rw [request_eq]

@[simp] theorem request_world :
    (request b e l).2.world = (b.bind e (l.session + 1) l.world).2 := by rw [request_eq]

@[simp] theorem request_calls : (request b e l).2.calls =
    l.calls ++ [.bind e (l.session + 1) (answer b e l).verdict] := by rw [request_eq]

theorem prefix_request : l.calls <+: (request b e l).2.calls := by
  rw [request_calls]
  exact List.prefix_append _ _

theorem request_queue (h : l.running = true) :
    (request b e l).2.queue = l.queue ++ (answer b e l).early := by simp [request_eq, h]

theorem early_le_request : ∀ r ∈ (answer b e l).early, r.1 ≤ l.session + 1 :=
  b.early_le e (l.session + 1) l.world

theorem connect_of_held (h : l.state.endpoint = some e) :
    l.connect b e = (.alreadyBound, l) := by
  simp [connect, h]

/-- Giving up what is not held changes nothing, so the two ways to a request are one. -/
theorem connect_of_not_held (h : l.state.endpoint ≠ some e) :
    l.connect b e = request b e (l.disconnect b).2 := by
  cases hs : l.state.endpoint with
  | none =>
    rw [disconnect_of_unbound (by simpa using hs)]
    simp [connect, hs]
  | some held =>
    have hne : held ≠ e := fun he => h (by rw [hs, he])
    simp [connect, hs, hne]

/-- The bind that a log of calls leaves outstanding, with its session. -/
def outstanding (calls : List BinderCall) : Option (Endpoint × Session) :=
  calls.foldl held none
where
  /-- A bind counts once it is accepted, until its endpoint is released. -/
  held (o : Option (Endpoint × Session)) : BinderCall → Option (Endpoint × Session)
    | .bind e n .accepted => some (e, n)
    | .bind _ _ _ => o
    | .unbind e => if o.map Prod.fst = some e then none else o

theorem outstanding_append_bind (calls : List BinderCall) (e : Endpoint) (n : Session)
    (v : Verdict) : outstanding (calls ++ [.bind e n v]) =
      if v = .accepted then some (e, n) else outstanding calls := by
  cases v <;> simp [outstanding, outstanding.held]

theorem outstanding_append_unbind {calls : List BinderCall}
    (h : outstanding calls = some (e, n)) : outstanding (calls ++ [.unbind e]) = none := by
  unfold outstanding at h
  simp [outstanding, outstanding.held, h]

/-- The sessions of the binds in a log, oldest first. -/
def sessions (calls : List BinderCall) : List Session :=
  calls.filterMap fun
    | .bind _ n _ => some n
    | .unbind _ => none

@[simp] theorem sessions_append_bind (calls : List BinderCall) (e : Endpoint) (n : Session)
    (v : Verdict) : sessions (calls ++ [.bind e n v]) = sessions calls ++ [n] := by
  simp [sessions]

@[simp] theorem sessions_append_unbind (calls : List BinderCall) (e : Endpoint) :
    sessions (calls ++ [.unbind e]) = sessions calls := by
  simp [sessions]

/-- The link holds what its log leaves outstanding, under the session of that bind. -/
def Accounted (l : Link ω) : Prop :=
  outstanding l.calls = l.state.endpoint.map fun e => (e, l.session)

theorem accounted_disconnect (h : l.Accounted) : (l.disconnect b).2.Accounted := by
  rcases disconnect_cases b l with ⟨-, hd⟩ | ⟨e, hs, hd⟩ <;> rw [hd]
  · exact h
  · have ho : outstanding l.calls = some (e, l.session) := by simpa [Accounted, hs] using h
    simpa [Accounted, LinkState.endpoint] using outstanding_append_unbind ho

theorem accounted_request (hu : l.state = .unbound) (h : l.Accounted) :
    (request b e l).2.Accounted := by
  have hn : outstanding l.calls = none := by simpa [Accounted, hu, LinkState.endpoint] using h
  rw [Accounted, request_calls, outstanding_append_bind, request_state, request_session, hu, hn]
  split <;> simp [LinkState.endpoint]

end Link

end ScoreRelay
