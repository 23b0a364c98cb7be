import ScoreRelay.Caller
import ScoreRelay.Service.Dump

/-! The operations of a service as callers reach them: each checks its caller first. -/
namespace ScoreRelay

/-- Why a caller is turned away. -/
inductive Denial where
  | notActiveScorer (uid : UInt32)
  | neitherScorerNorManager (uid : UInt32)
  | lacks (uid : UInt32) (privilege : Privilege)
  deriving DecidableEq, Repr

namespace Denial

def message : Denial → String
  | .notActiveScorer uid => "uid " ++ toString uid.toNat ++ " is not the active scorer"
  | .neitherScorerNorManager uid =>
    "uid " ++ toString uid.toNat ++ " is neither the active scorer nor the scorer manager"
  | .lacks uid privilege => "uid " ++ toString uid.toNat ++ " lacks " ++ privilege.title

def fault (d : Denial) : Fault := .permissionDenied d.message

end Denial

namespace Access

/-- The caller is in charge, by its uid. -/
def asScorer (l : Lineup) (c : Caller) : Except Denial Unit :=
  if l.isActive c.uid then .ok () else .error (.notActiveScorer c.uid)

/-- The caller is in charge, or manages who is. -/
def asScorerOrManager (l : Lineup) (c : Caller) : Except Denial Unit :=
  if l.isActive c.uid || c.holds .broadcastNetworkPrivileged then .ok ()
  else .error (.neitherScorerNorManager c.uid)

/-- The caller holds a privilege. -/
def withPrivilege (p : Privilege) (c : Caller) : Except Denial Unit :=
  if c.holds p then .ok () else .error (.lacks c.uid p)

variable {κ ω α : Type}

/-- Do something to a service if the caller may; else turn it away and leave all as it is. -/
def guarded (check : Except Denial Unit) (act : Service κ ω → Except Fault α × Service κ ω)
    (s : Service κ ω) : Except Fault α × Service κ ω :=
  match check with
  | .ok () => act s
  | .error d => (.error d.fault, s)

def updateScores (p : Ports κ ω) (l : Lineup) (c : Caller) (networks : List ScoredNetwork) :
    Service κ ω → Except Fault Bool × Service κ ω :=
  guarded (asScorer l c) fun s => (.ok true, s.updateScores p networks)

def clearScores (p : Ports κ ω) (l : Lineup) (c : Caller) :
    Service κ ω → Except Fault Bool × Service κ ω :=
  guarded (asScorerOrManager l c) fun s => (.ok true, s.clearScores p)

def setActiveScorer (c : Caller) (package : String) :
    Service κ ω → Except Fault Bool × Service κ ω :=
  guarded (withPrivilege .scoreNetworks c) fun s => (.ok (ScoreRelay.setActiveScorer package), s)

/-- Accepted without effect: scoring follows the setting. -/
def disableScoring (l : Lineup) (c : Caller) : Service κ ω → Except Fault Unit × Service κ ω :=
  guarded (asScorerOrManager l c) fun s => (.ok (), s)

def register (c : Caller) (reg : Registration κ) : Service κ ω → Except Fault Unit × Service κ ω :=
  guarded (withPrivilege .broadcastNetworkPrivileged c) fun s => (.ok (), (s.register reg).2)

def unregister (c : Caller) (t : NetworkType) (id : String) :
    Service κ ω → Except Fault Unit × Service κ ω :=
  guarded (withPrivilege .broadcastNetworkPrivileged c) fun s => (.ok (), (s.unregister t id).2)

/-- The written account goes into a sink, which comes back untouched if the caller may not see it. -/
def dump (p : Ports κ ω) (l : Lineup) (c : Caller) (sink : Sink) (s : Service κ ω) :
    Except Fault Unit × Sink × Service κ ω :=
  match withPrivilege .dump c with
  | .error d => (.error d.fault, sink, s)
  | .ok () =>
    match s.dump p l sink with
    | (true, sink, s) => (.ok (), sink, s)
    | (false, sink, s) => (.error (.io Sink.fullText), sink, s)

end Access

end ScoreRelay
