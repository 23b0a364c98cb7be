import ScoreRelay.Link
import ScoreRelay.Monitor
import ScoreRelay.Registry.Broadcast
import ScoreRelay.Roster
import ScoreRelay.Sink

/-! The score service: it keeps the link on the scorer in charge, hands scores to the caches
registered for them, and tells its caches to forget scores whose giver has lost its place. -/
namespace ScoreRelay

/-- What a cache writes about itself, piece by piece. It stops at a piece that is refused. -/
structure DumpScript where
  pieces : List String
  /-- How it ends when all pieces were written. -/
  ending : Delivery
  /-- How it ends after a refusal. -/
  refused : Delivery
  deriving DecidableEq

/-- How registered caches are reached. A call may change the world `ω` in which the caches are, and an
update or a clear may register and unregister. -/
structure CachePort (κ ω : Type) where
  update : Registration κ → List ScoredNetwork → Registry κ × ω → Delivery × (Registry κ × ω)
  clear : Registration κ → Registry κ × ω → Delivery × (Registry κ × ω)
  dump : Registration κ → ω → DumpScript × ω

/-- What a service works with: a binder and a way to its caches, both in one world. -/
structure Ports (κ ω : Type) where
  binder : Binder ω
  caches : CachePort κ ω

structure Service (κ ω : Type) where
  registry : Registry κ := {}
  link : Link ω
  monitors : Monitors Unit := {}
  deriving DecidableEq

namespace Service

variable {κ ω : Type}

/-- Call the caches of some sets with an action. -/
def tell (s : Service κ ω) (sets : List (ListenerSet κ))
    (act : Registration κ → Registry κ × ω → Delivery × (Registry κ × ω)) : Service κ ω :=
  let (_, (registry, world)) := broadcast act sets (s.registry, s.link.world)
  { s with registry := registry, link := { s.link with world := world } }

/-- Tell every registered cache to drop its scores. -/
def clearScores (p : Ports κ ω) (s : Service κ ω) : Service κ ω :=
  s.tell s.registry.snapshotAll p.caches.clear

/-- The scores of one kind, in the order given. -/
def batch (networks : List ScoredNetwork) (t : NetworkType) : List ScoredNetwork :=
  networks.filter fun n => n.networkType = t

/-- Hand the scores of one kind to the caches registered for it. -/
def updateType (p : Ports κ ω) (networks : List ScoredNetwork) (s : Service κ ω) (t : NetworkType) :
    Service κ ω :=
  if (batch networks t).isEmpty then s
  else
    match s.registry.snapshot t with
    | some set => s.tell [set] fun reg => p.caches.update reg (batch networks t)
    | none => s

/-- Hand scores to the caches registered for their kinds, kind by kind. -/
def updateScores (p : Ports κ ω) (networks : List ScoredNetwork) (s : Service κ ω) :
    Service κ ω :=
  NetworkType.all.foldl (updateType p networks) s

/-- Give up the link and have all scores dropped. -/
def release (p : Ports κ ω) (s : Service κ ω) : Service κ ω :=
  clearScores p { s with link := (s.link.disconnect p.binder).2 }

/-- Bring the link to the endpoint of a scorer. Another endpoint stands for another authority, whose
scores are dropped with its link; so are all scores if there is nothing to link to. A refused bind is
left to the next occasion. -/
def bindTo (p : Ports κ ω) (scorer : Option Scorer) (s : Service κ ω) :
    Outcome Unit × Service κ ω :=
  match scorer.bind Scorer.endpoint with
  | none => (.done (), release p s)
  | some e =>
    let s :=
      match s.link.state.endpoint with
      | some held => if held = e then s else release p s
      | none => s
    match s.link.connect p.binder e with
    | (.crashed, link) => (.crashed, { s with link := link })
    | (_, link) => (.done (), { s with link := link })

/-- Bring the link to the scorer in charge. -/
def evaluate (p : Ports κ ω) (l : Lineup) (s : Service κ ω) : Outcome Unit × Service κ ω :=
  bindTo p l.active s

/-- Look at the link again because of a package. Packages that are no candidates do not matter. -/
def packageChanged (p : Ports κ ω) (l : Lineup) (t : Trigger) (s : Service κ ω) :
    Outcome Unit × Service κ ω :=
  if l.candidates.contains t.package then
    match l.active with
    | none => (.done (), release p s)
    | some scorer =>
      bindTo p (some scorer) (if t.force && scorer.package == t.package then release p s else s)
  else (.done (), s)

/-- Begin to watch, if there is any candidate. -/
def systemReady (l : Lineup) (s : Service κ ω) : Service κ ω :=
  if l.candidates.isEmpty then s
  else
    let monitors := (s.monitors.registerPackages l.candidates ()).2
    { s with monitors := (monitors.registerObserver ()).2 }

/-- The first evaluation. -/
def systemRunning (p : Ports κ ω) (l : Lineup) (s : Service κ ω) : Outcome Unit × Service κ ω :=
  evaluate p l s

/-- Watch the candidates of now, and look at the link again. -/
def userUnlocked (p : Ports κ ω) (l : Lineup) (s : Service κ ω) : Outcome Unit × Service κ ω :=
  evaluate p l { s with monitors := (s.monitors.registerPackages l.candidates ()).2 }

/-- Watch nothing and hold nothing. -/
def shutdown (p : Ports κ ω) (s : Service κ ω) : Service κ ω :=
  { s with monitors := s.monitors.clear, link := s.link.shutdown p.binder }

/-- Hand a package event to the monitor; the answer counts the evaluations. -/
def packageEvent (p : Ports κ ω) (l : Lineup) (e : PackageEvent) (s : Service κ ω) :
    Outcome Nat × Service κ ω :=
  s.monitors.dispatchEvent (fun _ _ => true) (fun _ t => packageChanged p l t) e s

/-- Hand a change of the setting to the observer; the answer tells whether there is one. -/
def settingEvent (p : Ports κ ω) (l : Lineup) (s : Service κ ω) : Outcome Bool × Service κ ω :=
  s.monitors.dispatchSetting (fun _ _ => true) (fun _ => evaluate p l) s

def register (reg : Registration κ) (s : Service κ ω) : RegisterResult × Service κ ω :=
  let (result, registry) := s.registry.register reg
  (result, { s with registry := registry })

def unregister (t : NetworkType) (id : String) (s : Service κ ω) : UnregisterResult × Service κ ω :=
  let (result, registry) := s.registry.unregister t id
  (result, { s with registry := registry })

/-- Report an event of the link under the session of a bind. -/
def notify (session : Session) (event : LinkEvent) (s : Service κ ω) : Bool × Service κ ω :=
  let (taken, link) := s.link.notify session event
  (taken, { s with link := link })

/-- Handle all events of the link that wait. -/
def settle (s : Service κ ω) : Service κ ω := { s with link := s.link.settle }

end Service

/-- No recommendation is worked out: the network selected now is the one recommended. -/
def recommend (request : Option RecommendationRequest) : Recommendation :=
  ⟨request.bind (·.currentSelected)⟩

/-- Scores are not made on demand. -/
def requestScores (_ : List NetworkKey) : Except Fault Bool :=
  .error (.unsupportedOperation "requesting scores")

/-- Who is in charge follows from the roster, and is never set. -/
def setActiveScorer (_ : String) : Bool := false

end ScoreRelay
