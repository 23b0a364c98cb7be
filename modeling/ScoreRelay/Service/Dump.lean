import ScoreRelay.Service.Basic

/-! The written account of a service: the scorer in charge, every registered cache, the link. -/
namespace ScoreRelay.Service

variable {κ ω : Type}

/-- The sink, whether it has refused something that counts, and the world of the caches. -/
structure Dumping (ω : Type) where
  sink : Sink
  stopped : Bool
  world : ω

/-- The line in front of what a cache writes. -/
def cacheLine (reg : Registration κ) : String :=
  "ScoreCache " ++ reg.id ++ " [" ++ reg.networkType.name ++ "] filter=" ++ reg.filter.name ++ "\n"

/-- The line for a cache that failed to give an account of itself. -/
def failureLine (reason : String) : String := "Failed to dump score cache: " ++ reason ++ "\n"

/-- The account of one cache. A failure of the cache is written down, one of the sink ends the
writing, and a crash leaves what was written. -/
def dumpCache (p : CachePort κ ω) (reg : Registration κ) (d : Dumping ω) : Delivery × Dumping ω :=
  if d.stopped then (.delivered, d)
  else
    match d.sink.write (cacheLine reg) with
    | (false, sink) => (.delivered, { d with sink := sink, stopped := true })
    | (true, sink) =>
      let (script, world) := p.dump reg d.world
      let (complete, sink) := sink.writeAll script.pieces
      match if complete then script.ending else script.refused with
      | .delivered => (.delivered, ⟨sink, false, world⟩)
      | .crashed => (.crashed, ⟨sink, false, world⟩)
      | .failed reason =>
        let (taken, sink) := sink.write (failureLine reason)
        (.delivered, ⟨sink, !taken, world⟩)

/-- The first line. -/
def scorerLine (l : Lineup) : String :=
  match l.active with
  | some s => "Current scorer: " ++ s.package ++ "\n"
  | none => "Scoring is disabled.\n"

/-- Write the account into a sink. False tells that the sink refused something. -/
def dump (p : Ports κ ω) (l : Lineup) (sink : Sink) (s : Service κ ω) :
    Bool × Sink × Service κ ω :=
  match sink.write (scorerLine l) with
  | (false, sink) => (false, sink, s)
  | (true, sink) =>
    let (_, d) := broadcast (dumpCache p.caches) s.registry.snapshotAll ⟨sink, false, s.link.world⟩
    let s := { s with link := { s.link with world := d.world } }
    if d.stopped then (false, d.sink, s)
    else
      let (taken, sink) := d.sink.write s.link.report
      (taken, sink, s)

end ScoreRelay.Service
