import ScoreRelay.Cache
import ScoreRelay.Service.Access
import ScoreRelay.Wire.Request

/-! An agent: a service for the configured providers with one memory cache for each configured kind of
network, driven by requests. -/
namespace ScoreRelay

/-- The world an agent works in: whatever its binder keeps, and the caches. -/
structure Agent.World (σ : Type) where
  binder : σ
  caches : List MemoryCache
  deriving DecidableEq

variable {σ : Type}

/-- Memory caches are reached by their place in the list of caches. -/
def Agent.memoryPort : CachePort Nat (Agent.World σ) where
  update reg batch := fun (registry, w) =>
    match w.caches[reg.cache]? with
    | none => (.delivered, (registry, w))
    | some c =>
      let (foreign, c') := c.update batch
      let outcome :=
        match foreign with
        | none => Delivery.delivered
        | some t => .failed (c.misdelivered t)
      (outcome, (registry, { w with caches := w.caches.set reg.cache c' }))
  clear reg := fun (registry, w) =>
    (.delivered, (registry, { w with caches := w.caches.modify reg.cache MemoryCache.clear }))
  dump reg w :=
    let pieces :=
      match w.caches[reg.cache]? with
      | none => []
      | some c => c.report
    (⟨pieces, .delivered, .failed Sink.fullText⟩, w)

structure Agent (σ : Type) where
  roster : Roster
  service : Service Nat (Agent.World σ)
  deriving DecidableEq

namespace Agent

def ports (b : Binder σ) : Ports Nat (World σ) where
  binder := b.within World.binder fun w binder => { w with binder := binder }
  caches := memoryPort

def world (a : Agent σ) : World σ := a.service.link.world

def caches (a : Agent σ) : List MemoryCache := a.world.caches

def lineup (a : Agent σ) : Lineup := a.roster.lineup

/-- Register caches one after the other, the first of them at place `k`. -/
def registerCaches : Nat → List MemoryCache → Registry Nat → Registry Nat
  | _, [], r => r
  | k, c :: cs, r => registerCaches (k + 1) cs (r.register ⟨c.networkType, c.id, c.filter, k⟩).2

/-- The caches of a configuration; `name` gives the identifier of the one at each place. -/
def configured (c : Config) (name : Nat → String) : List MemoryCache :=
  c.cacheTypes.zipIdx.map fun (t, k) =>
    { id := name k, networkType := t, filter := c.cacheFilter }

/-- An agent that has done nothing yet. -/
def fresh (c : Config) (name : Nat → String) (binder : σ) : Agent σ :=
  let caches := configured c name
  let world : World σ := ⟨binder, caches⟩
  ⟨.ofConfig c, { registry := registerCaches 0 caches {}, link := { world := world } }⟩

/-- Put the agent to work: watch, then evaluate for the first time. -/
def start (b : Binder σ) (a : Agent σ) : Outcome Unit × Agent σ :=
  let l := a.lineup
  let (outcome, service) := (a.service.systemReady l).systemRunning (ports b) l
  (outcome, { a with service := service })

/-- Report an event of the link under the session of a bind. -/
def notify (session : Session) (event : LinkEvent) (a : Agent σ) : Bool × Agent σ :=
  let (taken, service) := a.service.notify session event
  (taken, { a with service := service })

/-- Handle all events of the link that wait. -/
def settle (a : Agent σ) : Agent σ := { a with service := a.service.settle }

def shutdown (b : Binder σ) (a : Agent σ) : Agent σ :=
  { a with service := a.service.shutdown (ports b) }

end Agent

/-- What a listing tells of a cache. -/
def MemoryCache.summary (c : MemoryCache) : Json :=
  .object [("id", .string c.id), ("network_type", c.networkType.json), ("filter", c.filter.json),
    ("scores", .array (c.scores.map ScoredNetwork.json))]

end ScoreRelay
