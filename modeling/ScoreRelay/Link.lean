import ScoreRelay.Fault

/-! The one link to the endpoint of the scorer in charge. A bind is only asked for; that the service
came up or went away is reported later, as an event under the session of that bind, and waits in a
queue until it is delivered. Events of sessions that are over have no effect. -/
namespace ScoreRelay

/-- Numbers the binds and releases of a link, in a counter that comes round. -/
abbrev Session := UInt64

inductive LinkEvent where
  | connected
  | disconnected
  deriving DecidableEq, Repr

inductive LinkState where
  | unbound
  | binding (endpoint : Endpoint)
  | connected (endpoint : Endpoint)
  deriving DecidableEq, Repr

namespace LinkState

def endpoint : LinkState → Option Endpoint
  | .unbound => none
  | .binding e | .connected e => some e

def isBound (s : LinkState) : Bool := s.endpoint.isSome

def isConnected : LinkState → Bool
  | .connected _ => true
  | .unbound | .binding _ => false

def name : LinkState → String
  | .unbound => "unbound"
  | .binding _ => "binding"
  | .connected _ => "connected"

/-- The state after an event of the session in force. -/
def after : LinkState → LinkEvent → LinkState
  | .binding e, .connected => .connected e
  | .connected e, .disconnected => .binding e
  | s, _ => s

@[simp] theorem endpoint_after (s : LinkState) (ev : LinkEvent) :
    (s.after ev).endpoint = s.endpoint := by
  cases s <;> cases ev <;> rfl

end LinkState

/-- How a binder takes a request to bind. -/
inductive Verdict where
  | accepted
  | refused (reason : String)
  | crashed
  deriving DecidableEq, Repr

/-- The answer to a request to bind, with the events reported before it was given, each under the
session of the bind it is about. -/
structure BindAnswer where
  verdict : Verdict
  early : List (Session × LinkEvent)
  deriving DecidableEq, Repr

/-- What carries out the requests of a link. It acts on a world outside the link; a release may fail
for a reason. -/
structure Binder (ω : Type) where
  bind : Endpoint → Session → ω → BindAnswer × ω
  unbind : Endpoint → ω → Option String × ω
  /-- Nothing is reported under a session that has yet to begin. -/
  early_le : ∀ e session w, ∀ r ∈ (bind e session w).1.early, r.1 ≤ session

/-- A binder as part of a larger world, of which it touches its own part alone. -/
def Binder.within {σ ω : Type} (b : Binder σ) (part : ω → σ) (replace : ω → σ → ω) : Binder ω where
  bind e session w :=
    let (answer, s) := b.bind e session (part w)
    (answer, replace w s)
  unbind e w :=
    let (failure, s) := b.unbind e (part w)
    (failure, replace w s)
  early_le e session w := b.early_le e session (part w)

/-- A request made of the binder. -/
inductive BinderCall where
  | bind (endpoint : Endpoint) (session : Session) (verdict : Verdict)
  | unbind (endpoint : Endpoint)
  deriving DecidableEq, Repr

/-- A link with the world its binder acts on, the events that wait, and all requests so far, oldest
first. -/
structure Link (ω : Type) where
  state : LinkState := .unbound
  session : Session := 0
  /-- Events are taken; false for good after a shutdown. -/
  running : Bool := true
  queue : List (Session × LinkEvent) := []
  world : ω
  calls : List BinderCall := []
  deriving DecidableEq

inductive ConnectResult where
  | bindRequested
  | alreadyBound
  | failed (reason : String)
  | crashed
  deriving DecidableEq, Repr

namespace Link

variable {ω : Type}

/-- Report an event under a session. False if nobody takes events any more. -/
def notify (l : Link ω) (session : Session) (event : LinkEvent) : Bool × Link ω :=
  if l.running then (true, { l with queue := l.queue ++ [(session, event)] }) else (false, l)

/-- Handle the oldest event that waits. -/
def deliver (l : Link ω) : Link ω :=
  match l.queue with
  | [] => l
  | (session, event) :: rest =>
    if session = l.session then { l with state := l.state.after event, queue := rest }
    else { l with queue := rest }

/-- The state after some events, given the session in force. -/
def stateAfter (session : Session) (s : LinkState) (events : List (Session × LinkEvent)) : LinkState :=
  events.foldl (fun s e => if e.1 = session then s.after e.2 else s) s

/-- Handle all events that wait. -/
def settle (l : Link ω) : Link ω :=
  { l with state := stateAfter l.session l.state l.queue, queue := [] }

/-- Give up what is held. A release that fails counts as done. -/
def disconnect (b : Binder ω) (l : Link ω) : Bool × Link ω :=
  match l.state.endpoint with
  | none => (false, l)
  | some e =>
    let (_, world) := b.unbind e l.world
    (true, { l with
      state := .unbound
      session := l.session + 1
      world := world
      calls := l.calls ++ [.unbind e] })

/-- Ask for a bind in a new session. -/
def request (b : Binder ω) (e : Endpoint) (l : Link ω) : ConnectResult × Link ω :=
  let session := l.session + 1
  let (answer, world) := b.bind e session l.world
  let l : Link ω := { l with
    session := session
    world := world
    queue := if l.running then l.queue ++ answer.early else l.queue
    calls := l.calls ++ [.bind e session answer.verdict] }
  match answer.verdict with
  | .accepted => (.bindRequested, { l with state := .binding e })
  | .refused reason => (.failed reason, l)
  | .crashed => (.crashed, l)

/-- Hold a link to an endpoint, giving up one to any other. After a refusal nothing is held. -/
def connect (b : Binder ω) (e : Endpoint) (l : Link ω) : ConnectResult × Link ω :=
  match l.state.endpoint with
  | some held =>
    if held = e then (.alreadyBound, l) else request b e (l.disconnect b).2
  | none => request b e l

/-- Give up what is held and take no more events. -/
def shutdown (b : Binder ω) (l : Link ω) : Link ω :=
  { (l.disconnect b).2 with running := false, queue := [] }

/-- A link that goes out of use is shut down, for the last time. -/
def drop (b : Binder ω) (l : Link ω) : Link ω := l.shutdown b

/-- One line on what is held. -/
def report (l : Link ω) : String :=
  match l.state.endpoint with
  | some e =>
    "ScorerConnection: " ++ e.text ++ ", bound: true, connected: " ++
      (if l.state.isConnected then "true" else "false") ++ "\n"
  | none => "ScorerConnection: none\n"

end Link

end ScoreRelay
