/-! Who calls, and what it may do. -/
namespace ScoreRelay

inductive Privilege where
  | broadcastNetworkPrivileged
  | scoreNetworks
  | dump
  deriving DecidableEq, Repr

namespace Privilege

def all : List Privilege := [.broadcastNetworkPrivileged, .scoreNetworks, .dump]

/-- The name a privilege is claimed by. -/
def name : Privilege → String
  | .broadcastNetworkPrivileged => "broadcast_network_privileged"
  | .scoreNetworks => "score_networks"
  | .dump => "dump"

/-- The name a privilege has in a refusal. -/
def title : Privilege → String
  | .broadcastNetworkPrivileged => "BroadcastNetworkPrivileged"
  | .scoreNetworks => "ScoreNetworks"
  | .dump => "Dump"

end Privilege

/-- A caller with the privileges it claims, in the order it claims them. -/
structure Caller where
  uid : UInt32
  privileges : List Privilege
  deriving DecidableEq, Repr

namespace Caller

/-- The system itself, holding everything. -/
def system : Caller := ⟨1000, Privilege.all⟩

def holds (c : Caller) (p : Privilege) : Bool := c.privileges.contains p

/-- Same uid and the same privileges; order and repeats do not count. -/
def sameAs (c d : Caller) : Bool :=
  c.uid == d.uid && Privilege.all.all fun p => c.holds p == d.holds p

end Caller

end ScoreRelay
