import ScoreRelay.Proofs.Service.Seen

/-! A service whose calls are noted, in the order they are made. The notes change nothing about what it does,
so that what they say of it holds of the service without them. -/
namespace ScoreRelay

/-- A call that a service makes of its binder or of a registered cache. -/
inductive PortCall (κ : Type) where
  | bind (endpoint : Endpoint)
  | unbind (endpoint : Endpoint)
  | update (reg : Registration κ) (batch : List ScoredNetwork)
  | clear (reg : Registration κ)
  | dump (reg : Registration κ)

/-- The call is a request to the binder. -/
def PortCall.isRequest {κ : Type} : PortCall κ → Bool
  | .bind _ | .unbind _ => true
  | .update _ _ | .clear _ | .dump _ => false

/-- A request as a service makes it, whatever comes of it. -/
def BinderCall.port {κ : Type} : BinderCall → PortCall κ
  | .bind e _ _ => .bind e
  | .unbind e => .unbind e

/-- A world and the calls made in it, oldest first. -/
structure Noted (κ ω : Type) where
  world : ω
  calls : List (PortCall κ) := []

variable {κ ω : Type} {p : Ports κ ω}

/-- The call is made, and leaves another world. -/
def Noted.after (w : Noted κ ω) (call : PortCall κ) (world : ω) : Noted κ ω :=
  ⟨world, w.calls ++ [call]⟩

/-- The same ports, with every call noted. -/
def Ports.noted (p : Ports κ ω) : Ports κ (Noted κ ω) where
  binder :=
    { bind e session w :=
        let (answer, world) := p.binder.bind e session w.world
        (answer, w.after (.bind e) world)
      unbind e w :=
        let (failure, world) := p.binder.unbind e w.world
        (failure, w.after (.unbind e) world)
      early_le e session w := p.binder.early_le e session w.world }
  caches :=
    { update reg batch x :=
        let (outcome, (registry, world)) := p.caches.update reg batch (x.1, x.2.world)
        (outcome, (registry, x.2.after (.update reg batch) world))
      clear reg x :=
        let (outcome, (registry, world)) := p.caches.clear reg (x.1, x.2.world)
        (outcome, (registry, x.2.after (.clear reg) world))
      dump reg w :=
        let (script, world) := p.caches.dump reg w.world
        (script, w.after (.dump reg) world) }

theorem Ports.through_noted (p : Ports κ ω) : p.noted.Through Noted.world p where
  binder := ⟨fun _ _ _ => rfl, fun _ _ => rfl⟩
  update _ _ _ := rfl
  clear _ _ := rfl

/-- A record that grows by one note with each call holds in the end a note for each registration. -/
theorem broadcast_notes {σ α : Type} {act : Registration κ → σ → Delivery × σ}
    {notes : σ → List α} {note : Registration κ → α}
    (h : ∀ reg s, notes (act reg s).2 = notes s ++ [note reg]) (sets : List (ListenerSet κ)) (s : σ) :
    notes (broadcast act sets s).2 =
      notes s ++ (sets.flatMap ListenerSet.registrations).map note := by
  rw [broadcast_state]
  generalize sets.flatMap ListenerSet.registrations = regs
  induction regs generalizing s with
  | nil => simp
  | cons reg regs ih =>
    rw [List.foldl_cons, ih, h, List.map_cons, List.append_assoc, List.singleton_append]

namespace Link

variable {l : Link (Noted κ ω)} {e : Endpoint}

theorem disconnect_notes : (l.disconnect p.noted.binder).2.world.calls =
    l.world.calls ++ l.state.endpoint.toList.map .unbind := by
  cases h : l.state.endpoint with
  | none =>
    rw [disconnect_of_unbound (by simpa using h)]
    simp
  | some e =>
    rw [disconnect_of_bound h]
    rfl

theorem request_notes : (request p.noted.binder e l).2.world.calls = l.world.calls ++ [.bind e] := by
  rw [request_world]
  rfl

end Link

namespace Service

variable {s : Service κ (Noted κ ω)} {sets : List (ListenerSet κ)}

/-- A service of whose calls none has been noted yet. -/
def toNoted (s : Service κ ω) : Service κ (Noted κ ω) := s.seen fun w => { world := w }

/-- The service without the notes. -/
def plain (s : Service κ (Noted κ ω)) : Service κ ω := s.seen Noted.world

/-- The calls made so far. -/
def notes (s : Service κ (Noted κ ω)) : List (PortCall κ) := s.link.world.calls

theorem tell_notes {act : Registration κ → Registry κ × Noted κ ω → Delivery × (Registry κ × Noted κ ω)}
    {note : Registration κ → PortCall κ}
    (h : ∀ reg x, (act reg x).2.2.calls = x.2.calls ++ [note reg]) :
    (s.tell sets act).notes =
      s.notes ++ (sets.flatMap ListenerSet.registrations).map note := by
  let notes : Registry κ × Noted κ ω → List (PortCall κ) := fun x => x.2.calls
  exact broadcast_notes (show ∀ reg x, notes (act reg x).2 = notes x ++ [note reg] from h) sets _

theorem clearScores_notes : (clearScores p.noted s).notes =
    s.notes ++ s.registry.listed.map .clear :=
  tell_notes fun _ _ => rfl

theorem release_notes : (release p.noted s).notes =
    s.notes ++ (s.link.state.endpoint.toList.map .unbind ++ s.registry.listed.map .clear) := by
  unfold release
  rw [clearScores_notes, notes, Link.disconnect_notes, List.append_assoc]
  rfl

/-- The log of a link goes on with the requests that are noted. -/
theorem stable_requests (p : Ports κ ω) (old : List (PortCall κ)) : Stable p.noted fun k =>
    k.calls.map BinderCall.port = old ++ k.world.calls.filter PortCall.isRequest where
  update k reg batch r h := by
    simpa [Ports.noted, Noted.after, List.filter_append, PortCall.isRequest] using h
  clear k reg r h := by
    simpa [Ports.noted, Noted.after, List.filter_append, PortCall.isRequest] using h
  disconnect k h := by
    rw [Link.disconnect_notes, List.filter_append, ← List.append_assoc, ← h]
    rcases Link.disconnect_cases p.noted.binder k with ⟨hs, hd⟩ | ⟨e, hs, hd⟩
    · simp [hd, hs, LinkState.endpoint]
    · rw [hd, hs, List.map_append]
      rfl
  request k e h := by
    rw [Link.request_notes, List.filter_append, ← List.append_assoc, ← h, Link.request_calls,
      List.map_append]
    rfl

/-- What an operation answers and what it leaves, without the notes. -/
def bared {α : Type} (x : α × Service κ (Noted κ ω)) : α × Service κ ω := (x.1, x.2.plain)

end Service

end ScoreRelay
