import Mathlib.Data.List.Induction
import ScoreRelay.Proofs.Link.Heard
import ScoreRelay.Scripted.Binder

/-! Events are taken up one at a time, whenever the worker gets to it. What a link comes to does not
depend on when that is: it is said by the bind outstanding and by that bind's own events. -/
namespace ScoreRelay.Link

variable {ω : Type} {b : Binder ω} {e : Endpoint} {l l' : Link ω} {n : Session} {s : LinkState}
  {xs ys : List (Session × LinkEvent)}

/-- A call that a link answers while it is in service. -/
inductive Call where
  | connect (endpoint : Endpoint)
  | disconnect
  /-- Report an event through the notifier of a session. -/
  | send (session : Session) (event : LinkEvent)

inductive CallResult where
  | connected (result : ConnectResult)
  | disconnected (held : Bool)
  | sent (taken : Bool)
  deriving DecidableEq

/-- A call is made, or the worker takes up the oldest event. -/
inductive Move where
  | call (c : Call)
  | work

def Move.call? : Move → Option Call
  | .call c => some c
  | .work => none

/-- A link whose binder notes what it hears, with the results of the calls so far, and all events sent, oldest
first. -/
structure Course (ω : Type) where
  link : Link (ω × List BinderNote)
  results : List CallResult := []
  sent : List (Session × LinkEvent) := []

namespace Course

/-- The events reported by the binder while it carried out what was noted since. -/
def reported (before after : Link (ω × List BinderNote)) : List (Session × LinkEvent) :=
  (after.world.2.drop before.world.2.length).flatMap BinderNote.early

/-- Answer a call. What goes through a notifier that the binder was handed has been sent, and so has what the
binder reports while it is asked; nothing can be sent through a notifier that was never handed out. -/
def call (b : Binder ω) (k : Course ω) : Call → Course ω
  | .connect e =>
    let r := k.link.connect b.noting e
    ⟨r.2, k.results ++ [.connected r.1], k.sent ++ reported k.link r.2⟩
  | .disconnect =>
    let r := k.link.disconnect b.noting
    ⟨r.2, k.results ++ [.disconnected r.1], k.sent ++ reported k.link r.2⟩
  | .send n ev =>
    if n ∈ sessions k.link.heard then
      let r := k.link.notify n ev
      ⟨r.2, k.results ++ [.sent r.1], k.sent ++ [(n, ev)]⟩
    else { k with results := k.results ++ [.sent false] }

def step (b : Binder ω) (k : Course ω) : Move → Course ω
  | .call c => k.call b c
  | .work => { k with link := k.link.deliver }

def run (b : Binder ω) (moves : List Move) (k : Course ω) : Course ω := moves.foldl (step b) k

/-- A link that nothing has happened to. -/
def start (w : ω) : Course ω := { link := { world := (w, []) } }

/-- What every move keeps, a run keeps. -/
theorem run_keeps {P : Course ω → Prop} {k : Course ω} (hp : ∀ k m, P k → P (k.step b m)) (h : P k)
    (moves : List Move) : P (k.run b moves) := by
  induction moves generalizing k with
  | nil => exact h
  | cons m moves ih => exact ih (hp k m h)

end Course

/-- Unbound if no bind is outstanding; else what the last event sent under its session says. -/
def decided (held : Option (Endpoint × Session)) (sent : List (Session × LinkEvent)) : LinkState :=
  match held with
  | none => .unbound
  | some (e, n) =>
    match (sent.filter fun r => r.1 = n).getLast? with
    | some (_, .connected) => .connected e
    | _ => .binding e

theorem stateAfter_append : stateAfter n s (xs ++ ys) = stateAfter n (stateAfter n s xs) ys := by
  simp [stateAfter]

@[simp] theorem endpoint_stateAfter : (stateAfter n s xs).endpoint = s.endpoint := by
  induction xs generalizing s with
  | nil => rfl
  | cons x xs ih =>
    change (stateAfter n (if x.1 = n then s.after x.2 else s) xs).endpoint = _
    rw [ih]
    split <;> simp

@[simp] theorem stateAfter_unbound : stateAfter n .unbound xs = .unbound :=
  LinkState.endpoint_eq_none_iff.mp endpoint_stateAfter

theorem stateAfter_of_others (h : ∀ r ∈ xs, r.1 ≠ n) : stateAfter n s xs = s := by
  induction xs with
  | nil => rfl
  | cons x xs ih =>
    obtain ⟨hx, hxs⟩ := List.forall_mem_cons.mp h
    simpa [stateAfter, hx] using ih hxs

theorem decided_append (hs : ∀ r ∈ xs, r.1 ≠ n) :
    decided (some (e, n)) (xs ++ ys) = decided (some (e, n)) ys := by
  have hx : xs.filter (fun r => r.1 = n) = [] := by
    simpa using fun m ev hr => hs (m, ev) hr
  simp [decided, hx]

theorem decided_snoc (r : Session × LinkEvent) : decided (some (e, n)) (xs ++ [r]) =
    if r.1 = n then (match r.2 with | .connected => .connected e | .disconnected => .binding e)
    else decided (some (e, n)) xs := by
  obtain ⟨m, ev⟩ := r
  by_cases hm : m = n
  · cases ev <;> simp [decided, hm]
  · simp [decided, hm]

@[simp] theorem endpoint_decided : (decided (some (e, n)) xs).endpoint = some e := by
  simp only [decided]
  split <;> rfl

theorem stateAfter_snoc_decided (r : Session × LinkEvent) :
    stateAfter n (decided (some (e, n)) xs) [r] = decided (some (e, n)) (xs ++ [r]) := by
  rw [decided_snoc]
  simp only [stateAfter, List.foldl_cons, List.foldl_nil]
  split
  · exact LinkState.after_of_endpoint endpoint_decided r.2
  · rfl

/-- A new bind is in the state that its own events say, whatever was sent before it. -/
theorem stateAfter_binding : stateAfter n (.binding e) xs = decided (some (e, n)) xs := by
  induction xs using List.reverseRecOn with
  | nil => rfl
  | append_singleton xs x ih => rw [stateAfter_append, ih, stateAfter_snoc_decided]

@[simp] theorem settle_deliver : l.deliver.settle = l.settle := by
  unfold deliver
  split
  · rfl
  · rename_i session event rest hq
    split
    · rename_i h
      simp [settle, stateAfter, hq, h]
    · rename_i h
      simp [settle, stateAfter, hq, h]

theorem settle_of_empty (h : l.queue = []) : l.settle = l := by
  obtain ⟨state, session, running, queue, world, calls⟩ := l
  obtain rfl : queue = [] := h
  rfl

/-- The two links differ at most in what waits, and in whether the bind held is confirmed. -/
structure Alike (l l' : Link ω) : Prop where
  endpoint : l.state.endpoint = l'.state.endpoint
  session : l.session = l'.session
  running : l.running = l'.running
  world : l.world = l'.world
  calls : l.calls = l'.calls

namespace Alike

theorem refl : l.Alike l := ⟨rfl, rfl, rfl, rfl, rfl⟩

theorem trans {l'' : Link ω} (h : l.Alike l') (h' : l'.Alike l'') : l.Alike l'' :=
  ⟨h.endpoint.trans h'.endpoint, h.session.trans h'.session, h.running.trans h'.running,
    h.world.trans h'.world, h.calls.trans h'.calls⟩

theorem symm (h : l.Alike l') : l'.Alike l :=
  ⟨h.endpoint.symm, h.session.symm, h.running.symm, h.world.symm, h.calls.symm⟩

theorem deliver (l : Link ω) : l.deliver.Alike l := by
  unfold Link.deliver
  split
  · exact refl
  · split
    · exact ⟨LinkState.endpoint_after _ _, rfl, rfl, rfl, rfl⟩
    · exact ⟨rfl, rfl, rfl, rfl, rfl⟩

theorem disconnect (h : l.Alike l') : (l.disconnect b).1 = (l'.disconnect b).1 ∧
    (l.disconnect b).2.Alike (l'.disconnect b).2 := by
  have he := h.endpoint
  cases hs : l.state.endpoint with
  | none =>
    rw [hs] at he
    rw [disconnect_of_unbound (by simpa using hs), disconnect_of_unbound (by simpa using he.symm)]
    exact ⟨rfl, h⟩
  | some e =>
    rw [hs] at he
    rw [disconnect_of_bound hs, disconnect_of_bound he.symm, h.world, h.calls, h.session]
    exact ⟨rfl, rfl, rfl, h.running, rfl, rfl⟩

theorem request (h : l.Alike l') (e : Endpoint) : (request b e l).1 = (request b e l').1 ∧
    (Link.request b e l).2.Alike (Link.request b e l').2 := by
  have ha : Link.answer b e l = Link.answer b e l' := by
    rw [Link.answer, h.session, h.world]
    rfl
  rw [request_eq, request_eq, ha, h.world, h.calls, h.session]
  refine ⟨rfl, ?_, rfl, h.running, rfl, rfl⟩
  dsimp only
  split
  · rfl
  · exact h.endpoint

theorem connect (h : l.Alike l') (e : Endpoint) : (l.connect b e).1 = (l'.connect b e).1 ∧
    (l.connect b e).2.Alike (l'.connect b e).2 := by
  have he := h.endpoint
  by_cases hs : l.state.endpoint = some e
  · rw [connect_of_held hs, connect_of_held (he ▸ hs)]
    exact ⟨rfl, h⟩
  · rw [connect_of_not_held hs, connect_of_not_held (he ▸ hs)]
    exact h.disconnect.2.request e

theorem notify (h : l.Alike l') (n : Session) (ev : LinkEvent) :
    (l.notify n ev).1 = (l'.notify n ev).1 ∧ (l.notify n ev).2.Alike (l'.notify n ev).2 := by
  unfold Link.notify
  rw [h.running]
  split
  · exact ⟨rfl, h.endpoint, h.session, rfl, h.world, h.calls⟩
  · exact ⟨rfl, h⟩

/-- Once nothing waits, links that are alike are the same if they come to the same state. -/
theorem settle_eq (h : l.Alike l') (hs : l.settle.state = l'.settle.state) :
    l.settle = l'.settle := by
  obtain ⟨state, session, running, queue, world, calls⟩ := l
  obtain ⟨state', session', running', queue', world', calls'⟩ := l'
  obtain ⟨-, rfl, rfl, rfl, rfl⟩ := h
  simpa [settle] using hs

end Alike

/-- In service, and the counter of sessions has not come round: every request of the binder has begun one, what
waits belongs to those that have begun, and each bind has had one of its own. -/
structure Ready (l : Link ω) : Prop where
  running : l.running = true
  counted : l.session.toNat = l.calls.length
  queued : ∀ r ∈ l.queue, r.1.toNat ≤ l.calls.length
  issued : ∀ n ∈ sessions l.calls, n.toNat ≤ l.calls.length
  distinct : (sessions l.calls).Nodup

section Ready

variable (h : l.Ready)
include h

theorem toNat_next (hroom : l.calls.length + 1 < UInt64.size) :
    (l.session + 1).toNat = l.calls.length + 1 := by
  rw [UInt64.toNat_add, h.counted]
  exact Nat.mod_eq_of_lt hroom

/-- The session that a request begins is a new one. -/
theorem ne_next (hroom : l.calls.length + 1 < UInt64.size) (hn : n.toNat ≤ l.calls.length) :
    n ≠ l.session + 1 := by
  rintro rfl
  rw [toNat_next h hroom] at hn
  omega

theorem ready_deliver : l.deliver.Ready := by
  unfold deliver
  split
  · exact h
  · rename_i session event rest hq
    have hrest : ∀ r ∈ rest, r.1.toNat ≤ l.calls.length := fun r hr => h.queued r (by simp [hq, hr])
    split <;> exact ⟨h.running, h.counted, hrest, h.issued, h.distinct⟩

theorem ready_disconnect (hroom : (l.disconnect b).2.calls.length < UInt64.size) :
    (l.disconnect b).2.Ready := by
  rcases disconnect_cases b l with ⟨-, hd⟩ | ⟨e, -, hd⟩ <;> rw [hd] at hroom ⊢
  · exact h
  · have hlen : (l.calls ++ [BinderCall.unbind e]).length = l.calls.length + 1 := by simp
    dsimp only at hroom
    rw [hlen] at hroom
    refine ⟨h.running, by rw [toNat_next h hroom, hlen], ?_, ?_, by simpa using h.distinct⟩
    · intro r hr
      rw [hlen]
      exact Nat.le_succ_of_le (h.queued r hr)
    · intro n hn
      rw [hlen]
      exact Nat.le_succ_of_le (h.issued n (by simpa using hn))

theorem early_le_next (hroom : l.calls.length + 1 < UInt64.size) :
    ∀ r ∈ (answer b e l).early, r.1.toNat ≤ l.calls.length + 1 := by
  intro r hr
  rw [← toNat_next h hroom]
  exact UInt64.le_iff_toNat_le.mp (early_le_request r hr)

theorem ready_request (hroom : l.calls.length + 1 < UInt64.size) : (request b e l).2.Ready := by
  have hlen : (request b e l).2.calls.length = l.calls.length + 1 := by simp
  refine ⟨by simp [h.running], by rw [request_session, toNat_next h hroom, hlen], ?_, ?_, ?_⟩
  · intro r hr
    rw [hlen]
    rw [request_queue h.running] at hr
    rcases List.mem_append.mp hr with hr | hr
    · exact Nat.le_succ_of_le (h.queued r hr)
    · exact early_le_next h hroom r hr
  · intro n hn
    rw [hlen]
    rw [request_calls, sessions_append_bind] at hn
    rcases List.mem_append.mp hn with hn | hn
    · exact Nat.le_succ_of_le (h.issued n hn)
    · exact Nat.le_of_eq (by rw [List.mem_singleton.mp hn, toNat_next h hroom])
  · rw [request_calls, sessions_append_bind]
    exact List.nodup_append.mpr ⟨h.distinct, by simp, fun n hn m hm he =>
      ne_next h hroom (h.issued n hn) (he.trans (List.mem_singleton.mp hm))⟩

theorem notify_of_ready (n : Session) (ev : LinkEvent) :
    l.notify n ev = (true, { l with queue := l.queue ++ [(n, ev)] }) := by
  simp [notify, h.running]

/-- A request begins a session, so what still waits is about nothing any more. -/
theorem settle_request_state (hroom : l.calls.length + 1 < UInt64.size) (hu : l.state = .unbound) :
    (request b e l).2.settle.state =
      if (answer b e l).verdict = .accepted then
        stateAfter (l.session + 1) (.binding e) (answer b e l).early
      else .unbound := by
  have hold : ∀ r ∈ l.queue, r.1 ≠ l.session + 1 := fun r hr => ne_next h hroom (h.queued r hr)
  rw [request_eq]
  simp only [settle, h.running, hu, if_true, stateAfter_append, stateAfter_of_others hold]
  split <;> simp

end Ready

theorem settle_of_unbound (h : l.state = .unbound) : l.settle.state = .unbound := by
  simp [settle, h]

theorem outstanding_of_unbound (h : l.Accounted) (hu : l.state = .unbound) :
    outstanding l.calls = none := by
  rw [h, hu]
  rfl

theorem prefix_connect : l.calls <+: (l.connect b e).2.calls := by
  by_cases hs : l.state.endpoint = some e
  · simp only [connect_of_held hs, List.prefix_rfl]
  · rw [connect_of_not_held hs]
    exact prefix_disconnect.trans prefix_request

theorem calls_notify (n : Session) (ev : LinkEvent) : (l.notify n ev).2.calls = l.calls := by
  unfold notify
  split <;> rfl

theorem accounted_congr (hs : l'.state.endpoint = l.state.endpoint)
    (hn : l'.session = l.session) (hc : l'.calls = l.calls) (h : l.Accounted) : l'.Accounted := by
  rw [Accounted, hs, hn, hc]
  exact h

theorem accounted_connect (h : l.Accounted) : (l.connect b e).2.Accounted := by
  by_cases hs : l.state.endpoint = some e
  · rwa [connect_of_held hs]
  · rw [connect_of_not_held hs]
    exact accounted_request disconnect_state (accounted_disconnect h)

namespace Course

variable {k k' : Course ω}

theorem reported_disconnect (l : Link (ω × List BinderNote)) :
    reported l (l.disconnect b.noting).2 = [] := by
  cases hs : l.state.endpoint with
  | none =>
    rw [disconnect_of_unbound (by simpa using hs)]
    simp [reported]
  | some e =>
    rw [reported, notes_disconnect hs, List.drop_left]
    rfl

/-- A connect that asks for a bind reports what the binder answers early. -/
theorem reported_connect {l : Link (ω × List BinderNote)} (hs : l.state.endpoint ≠ some e) :
    reported l (l.connect b.noting e).2 = (Link.answer b.noting e (l.disconnect b.noting).2).early := by
  have hd := reported_disconnect (b := b) l
  obtain ⟨released, hr⟩ : ∃ released, (l.disconnect b.noting).2.world.2 = l.world.2 ++ released := by
    cases hs : l.state.endpoint with
    | none =>
      rw [disconnect_of_unbound (by simpa using hs)]
      exact ⟨[], by simp⟩
    | some held => exact ⟨_, notes_disconnect hs⟩
  rw [reported, hr, List.drop_left] at hd
  rw [reported, connect_of_not_held hs, notes_request, hr, List.append_assoc, List.drop_left,
    List.flatMap_append, hd]
  simp [BinderNote.early, Link.answer, Binder.noting]

/-- Two courses that have shown the same to their callers, have sent the same, and have links that are alike. -/
structure Alike (k k' : Course ω) : Prop where
  results : k.results = k'.results
  sent : k.sent = k'.sent
  link : k.link.Alike k'.link

theorem alike_call (h : k.Alike k') (c : Call) : (k.call b c).Alike (k'.call b c) := by
  have hw := h.link.world
  cases c with
  | connect e =>
    obtain ⟨hr, hl⟩ := h.link.connect (b := b.noting) e
    refine ⟨?_, ?_, hl⟩
    · simp only [call, h.results, hr]
    · simp only [call, reported, h.sent, hl.world, hw]
  | disconnect =>
    obtain ⟨hr, hl⟩ := h.link.disconnect (b := b.noting)
    refine ⟨?_, ?_, hl⟩
    · simp only [call, h.results, hr]
    · simp only [call, reported, h.sent, hl.world, hw]
  | send n ev =>
    obtain ⟨hr, hl⟩ := h.link.notify n ev
    have hheard : k.link.heard = k'.link.heard := by rw [heard, hw, heard]
    simp only [call, hheard]
    split
    · exact ⟨by simp only [h.results, hr], by simp only [h.sent], hl⟩
    · exact ⟨by simp only [h.results], h.sent, h.link⟩

/-- Any schedule comes to what comes of the calls alone, but for what is still to be taken up. -/
theorem alike_run (h : k.Alike k') (moves : List Move) :
    (k.run b moves).Alike (k'.run b ((moves.filterMap Move.call?).map .call)) := by
  induction moves generalizing k k' with
  | nil => exact h
  | cons m moves ih =>
    cases m with
    | call c => exact ih (alike_call h c)
    | work => exact ih ⟨h.results, h.sent, (Link.Alike.deliver k.link).trans h.link⟩

/-- The log of the link is what the binder has heard, and leaves outstanding what the link holds. -/
structure Kept (k : Course ω) : Prop where
  heard : k.link.Heard
  accounted : k.link.Accounted

theorem kept_start (w : ω) : (start w).Kept := ⟨rfl, rfl⟩

theorem kept_step (h : k.Kept) (m : Move) : (k.step b m).Kept := by
  cases m with
  | work =>
    have ha := Link.Alike.deliver k.link
    exact ⟨heard_deliver h.heard, accounted_congr ha.endpoint ha.session ha.calls h.accounted⟩
  | call c =>
    cases c with
    | connect e => exact ⟨heard_connect h.heard e, accounted_connect h.accounted⟩
    | disconnect => exact ⟨heard_disconnect h.heard, accounted_disconnect h.accounted⟩
    | send n ev =>
      simp only [step, call]
      split
      · refine ⟨heard_notify h.heard n ev, ?_⟩
        unfold notify
        split <;> exact h.accounted
      · exact ⟨h.heard, h.accounted⟩

theorem kept_run (h : k.Kept) (moves : List Move) : (k.run b moves).Kept :=
  run_keeps (P := Kept) (fun _ m h => kept_step h m) h moves

theorem prefix_step (m : Move) : k.link.calls <+: (k.step b m).link.calls := by
  cases m with
  | work =>
    have hc : k.link.deliver.calls = k.link.calls := (Link.Alike.deliver k.link).calls
    simp only [step, hc, List.prefix_rfl]
  | call c =>
    cases c with
    | connect e => exact prefix_connect
    | disconnect => exact prefix_disconnect
    | send n ev =>
      simp only [step, call]
      split
      · simp only [calls_notify, List.prefix_rfl]
      · exact List.prefix_rfl

theorem prefix_run (moves : List Move) : k.link.calls <+: (k.run b moves).link.calls :=
  run_keeps (P := fun k' => k.link.calls <+: k'.link.calls) (fun _ m h => h.trans (prefix_step m))
    List.prefix_rfl moves

/-- The link is in service and keeps its accounts, and what it is coming to is what was sent under the
session of the bind outstanding. -/
structure Sound (k : Course ω) : Prop extends k.Kept where
  ready : k.link.Ready
  sent : ∀ r ∈ k.sent, r.1.toNat ≤ k.link.calls.length
  state : k.link.settle.state = decided (outstanding k.link.calls) k.sent

theorem sound_start (w : ω) : (start w).Sound where
  toKept := kept_start w
  ready := ⟨rfl, rfl, by simp [start], by simp [start, sessions], by simp [start, sessions]⟩
  sent := by simp [start]
  state := rfl

/-- What the callers were answered does not matter. -/
theorem Sound.with_results (h : k.Sound) (results : List CallResult) :
    Sound { k with results := results } :=
  ⟨⟨h.heard, h.accounted⟩, h.ready, h.sent, h.state⟩

theorem sound_connect (h : k.Sound) (e : Endpoint)
    (hroom : (k.call b (.connect e)).link.calls.length < UInt64.size) :
    (k.call b (.connect e)).Sound := by
  by_cases hs : k.link.state.endpoint = some e
  · simpa [call, connect_of_held hs, reported] using h.with_results _
  · have hlink : (k.call b (.connect e)).link = (request b.noting e (k.link.disconnect b.noting).2).2 := by
      simp only [call, connect_of_not_held hs]
    have hsent : (k.call b (.connect e)).sent =
        k.sent ++ (Link.answer b.noting e (k.link.disconnect b.noting).2).early := by
      simp only [call, reported_connect hs]
    have hroom : (k.link.disconnect b.noting).2.calls.length + 1 < UInt64.size := by
      simpa [hlink] using hroom
    have hr := ready_disconnect (b := b.noting) h.ready (by omega)
    have ha := accounted_disconnect (b := b.noting) h.accounted
    have hle := (prefix_disconnect (b := b.noting) (l := k.link)).length_le
    have hold : ∀ r ∈ k.sent, r.1.toNat ≤ (k.link.disconnect b.noting).2.calls.length :=
      fun r hm => Nat.le_trans (h.sent r hm) hle
    refine ⟨kept_step h.toKept (.call (.connect e)), hlink ▸ ready_request hr hroom, ?_, ?_⟩
    · intro r hm
      rw [hlink, request_calls, List.length_append, List.length_singleton]
      rw [hsent] at hm
      rcases List.mem_append.mp hm with hm | hm
      · exact Nat.le_succ_of_le (hold r hm)
      · exact early_le_next hr hroom r hm
    · rw [hlink, hsent, settle_request_state hr hroom disconnect_state, request_calls,
        outstanding_append_bind, outstanding_of_unbound ha disconnect_state]
      split
      · rw [decided_append fun r hm => ne_next hr hroom (hold r hm)]
        exact stateAfter_binding
      · rfl

theorem sound_disconnect (h : k.Sound)
    (hroom : (k.call b .disconnect).link.calls.length < UInt64.size) : (k.call b .disconnect).Sound where
  toKept := kept_step h.toKept (.call .disconnect)
  ready := ready_disconnect h.ready hroom
  sent := by
    simp only [call, reported_disconnect, List.append_nil]
    exact fun r hm => Nat.le_trans (h.sent r hm) prefix_disconnect.length_le
  state := by
    have ha := accounted_disconnect (b := b.noting) h.accounted
    simp only [call, settle_of_unbound disconnect_state, outstanding_of_unbound ha disconnect_state]
    rfl

theorem sound_send (h : k.Sound) (n : Session) (ev : LinkEvent) :
    (k.call b (.send n ev)).Sound := by
  have hk := kept_step (b := b) h.toKept (.call (.send n ev))
  by_cases hn : n ∈ sessions k.link.heard
  · have hle : n.toNat ≤ k.link.calls.length := by
      rw [← h.heard] at hn
      exact h.ready.issued n hn
    simp only [step, call, hn, if_true, notify_of_ready h.ready] at hk ⊢
    have hlater {rs : List (Session × LinkEvent)} (hrs : ∀ r ∈ rs, r.1.toNat ≤ k.link.calls.length) :
        ∀ r ∈ rs ++ [(n, ev)], r.1.toNat ≤ k.link.calls.length := by
      intro r hm
      rcases List.mem_append.mp hm with hm | hm
      · exact hrs r hm
      · rwa [List.mem_singleton.mp hm]
    refine ⟨hk, ⟨h.ready.running, h.ready.counted, hlater h.ready.queued, h.ready.issued,
      h.ready.distinct⟩, hlater h.sent, ?_⟩
    have hst := h.state
    simp only [settle, stateAfter_append] at hst ⊢
    rw [hst, h.accounted]
    cases k.link.state.endpoint with
    | none => exact stateAfter_unbound
    | some e => exact stateAfter_snoc_decided (n, ev)
  · simpa [call, hn] using h.with_results _

theorem sound_work (h : k.Sound) : (k.step b .work).Sound := by
  have hc : k.link.deliver.calls = k.link.calls := (Link.Alike.deliver k.link).calls
  refine ⟨kept_step h.toKept .work, ready_deliver h.ready, ?_, ?_⟩
  · simpa only [step, hc] using h.sent
  · simpa [step, hc] using h.state

theorem sound_step (h : k.Sound) (m : Move) (hroom : (k.step b m).link.calls.length < UInt64.size) :
    (k.step b m).Sound := by
  cases m with
  | work => exact sound_work h
  | call c =>
    cases c with
    | connect e => exact sound_connect h e hroom
    | disconnect => exact sound_disconnect h hroom
    | send n ev => exact sound_send (b := b) h n ev

theorem sound_run (h : k.Sound) (moves : List Move)
    (hroom : (k.run b moves).link.calls.length < UInt64.size) : (k.run b moves).Sound := by
  induction moves generalizing k with
  | nil => exact h
  | cons m moves ih =>
    have hlater := (prefix_run (b := b) (k := k.step b m) moves).length_le
    exact ih (sound_step h m (Nat.lt_of_le_of_lt hlater hroom)) hroom

/-- Two schedules of the same calls. -/
theorem alike_schedules {moves moves' : List Move}
    (hm : moves'.filterMap Move.call? = moves.filterMap Move.call?) :
    (k.run b moves').Alike (k.run b moves) := by
  have hk : k.Alike k := ⟨rfl, rfl, Link.Alike.refl⟩
  have h := alike_run (b := b) hk moves
  have h' := alike_run (b := b) hk moves'
  rw [hm] at h'
  exact ⟨h'.results.trans h.results.symm, h'.sent.trans h.sent.symm, h'.link.trans h.link.symm⟩

end Course

/-- Once no event waits, the link is in the state that the bind outstanding and the last event sent
through that bind's own notifier say; no two binds share a notifier. The bind outstanding is read from what the
binder has heard and answered, and its endpoint is held whether or not an event waits. When the worker runs
changes neither a result, nor what the binder hears and answers, nor what the link comes to. Notifiers are told
apart by a counter of 64 bits, which has not come round as long as the binder was asked for less than that. -/
theorem live_notifier_decides (b : Binder ω) (w : ω) (moves : List Move) :
    let k := (Course.start w).run b moves
    (outstanding k.link.heard).map Prod.fst = k.link.state.endpoint ∧
      (∀ moves' : List Move, moves'.filterMap Move.call? = moves.filterMap Move.call? →
        let k' := (Course.start w).run b moves'
        k'.results = k.results ∧ k'.sent = k.sent ∧ k'.link.world = k.link.world) ∧
      (k.link.heard.length < UInt64.size →
        (k.link.queue = [] → k.link.state = decided (outstanding k.link.heard) k.sent) ∧
        (sessions k.link.heard).Nodup ∧
        ∀ moves' : List Move, moves'.filterMap Move.call? = moves.filterMap Move.call? →
          ((Course.start w).run b moves').link.settle = k.link.settle) := by
  intro k
  have hk := Course.kept_run (b := b) (Course.kept_start w) moves
  have hh : k.link.calls = k.link.heard := hk.heard
  refine ⟨?_, ?_, ?_⟩
  · rw [← hh, hk.accounted, Option.map_map]
    exact Option.map_id'
  · intro moves' hm
    have ha := Course.alike_schedules (b := b) (k := Course.start w) hm
    exact ⟨ha.results, ha.sent, ha.link.world⟩
  · intro hroom
    rw [← hh] at hroom ⊢
    have hs := Course.sound_run (b := b) (Course.sound_start w) moves hroom
    refine ⟨?_, hs.ready.distinct, ?_⟩
    · intro hq
      have h := hs.state
      rwa [settle_of_empty hq] at h
    · intro moves' hm
      have ha := Course.alike_schedules (b := b) (k := Course.start w) hm
      have hs' := Course.sound_run (b := b) (Course.sound_start w) moves'
        (by rw [ha.link.calls]; exact hroom)
      apply ha.link.settle_eq
      rw [hs'.state, hs.state, ha.link.calls, ha.sent]

/-- An endpoint is bound, released and bound again. The notifier of the first bind comes too late, and the
worker may as well take up nothing until the end. -/
theorem live_notifier_decides_rebound :
    let e : Endpoint := ⟨"scorer", "Service"⟩
    let start := Course.start ({} : Scripted.BinderScript)
    let calls : List Call :=
      [.connect e, .disconnect, .connect e, .send 3 .connected, .send 1 .disconnected]
    let k := start.run Scripted.binder (calls.flatMap fun c => [.call c, .work])
    k.link.queue = [] ∧ k.link.heard.length < UInt64.size ∧ k.link.state = .connected e ∧
      k.link.settle = (start.run Scripted.binder (calls.map .call)).link.settle := by
  intro e start calls k
  have h := live_notifier_decides Scripted.binder {} (calls.flatMap fun c => [.call c, .work])
  have hq : k.link.queue = [] := by decide
  have hroom : k.link.heard.length < UInt64.size := by decide
  have hd : decided (outstanding k.link.heard) k.sent = .connected e := by decide
  obtain ⟨hstate, -, hsettle⟩ := h.2.2 hroom
  exact ⟨hq, hroom, (hstate hq).trans hd, (hsettle (calls.map .call) rfl).symm⟩

end ScoreRelay.Link
