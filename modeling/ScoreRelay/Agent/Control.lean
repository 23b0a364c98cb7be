import ScoreRelay.Agent.Basic

/-! Carrying out the requests that reach an agent as lines of text. -/
namespace ScoreRelay.Agent

variable {σ α : Type}

/-- What an agent does about a line. -/
inductive Reaction where
  /-- The line is no message: nothing is answered. -/
  | silent
  | replied (type : String) (reply : Reply)
  /-- The binder crashed, and the reply was lost with it. -/
  | crashed

/-- The answer of a request that cannot fail once it has its effect. -/
def answer (o : Outcome α × Service Nat (World σ)) (a : Agent σ) (data : α → Json) :
    Outcome (Except Fault Json) × Agent σ :=
  match o with
  | (.done x, service) => (.done (.ok (data x)), { a with service := service })
  | (.crashed, service) => (.crashed, { a with service := service })

/-- The answer of a request that checks its caller. -/
def checked (r : Except Fault α × Service Nat (World σ)) (a : Agent σ) (data : α → Json) :
    Outcome (Except Fault Json) × Agent σ :=
  (.done (r.1.map data), { a with service := r.2 })

/-- Change every cache. -/
def mapCaches (f : MemoryCache → MemoryCache) (a : Agent σ) : Agent σ :=
  let world := { a.world with caches := a.caches.map f }
  { a with service := { a.service with link := { a.service.link with world := world } } }

/-- Carry out a request. What it changes about the roster counts for its own evaluations. -/
def perform (b : Binder σ) (q : Request) (a : Agent σ) : Outcome (Except Fault Json) × Agent σ :=
  let p := ports b
  match q with
  | .packageEvent e =>
    let a :=
      match e.installs with
      | some (package, installed) => { a with roster := a.roster.setInstalled package installed }
      | none => a
    answer (a.service.packageEvent p a.lineup e) a fun n => .object [("evaluations", .count n)]
  | .settingChanged c =>
    let a := { a with roster := a.roster.setEnabled c.enabled }
    answer (a.service.settingEvent p a.lineup) a fun seen => .object [("observed", .bool seen)]
  | .userUnlocked _ => answer (a.service.userUnlocked p a.lineup) a fun _ => .null
  | .scoresUpdate u =>
    checked (Access.updateScores p a.lineup u.caller u.networks a.service) a fun ok =>
      .object [("accepted", .bool ok)]
  | .scoresClear c =>
    checked (Access.clearScores p a.lineup c.caller a.service) a fun ok =>
      .object [("cleared", .bool ok)]
  | .scoresRequest r =>
    (.done ((requestScores r.networks).map fun ok => .object [("accepted", .bool ok)]), a)
  | .recommendation r => (.done (.ok (recommend r).json), a)
  | .dump c =>
    let (result, sink, service) := Access.dump p a.lineup c.caller {} a.service
    checked (result, service) a fun _ => .object [("text", .string sink.text)]
  | .cachesList => (.done (.ok (.array (a.caches.map MemoryCache.summary))), a)
  | .networkCurrent n =>
    (.done (.ok .null),
      a.mapCaches fun c => c.setCurrent (n.network.filter (·.networkType = c.networkType)))
  | .networkScan n =>
    (.done (.ok (.object [("networks", .count n.networks.length)])),
      a.mapCaches fun c => c.setScan (n.networks.filter (·.networkType = c.networkType)))

/-- Answer a message. -/
def handle (b : Binder σ) (e : Envelope) (a : Agent σ) : Reaction × Agent σ :=
  match Request.ofEnvelope e with
  | .error u => (.replied e.replyType (.err e.id u.message), a)
  | .ok q =>
    match perform b q a with
    | (.crashed, a) => (.crashed, a)
    | (.done (.ok data), a) => (.replied e.replyType (.ok e.id data), a)
    | (.done (.error f), a) => (.replied e.replyType (.err e.id f.message), a)

/-- Answer a line. -/
def handleLine (b : Binder σ) (line : String) (a : Agent σ) : Reaction × Agent σ :=
  match Envelope.ofText? line with
  | none => (.silent, a)
  | some e => handle b e a

end ScoreRelay.Agent
