import ScoreRelay.Network

/-! A cache that keeps the latest score of each network in memory, as far as its filter lets it. -/
namespace ScoreRelay

structure MemoryCache where
  id : String
  networkType : NetworkType
  filter : CacheFilter
  /-- The scores kept, by identifier in ascending order. -/
  scores : List ScoredNetwork := []
  /-- The network the device is attached to, if it is of this kind. -/
  current : Option NetworkKey := none
  /-- The networks of this kind found by the latest scan. -/
  scan : List NetworkKey := []
  /-- The batches offered so far, in a counter that comes round. -/
  updates : UInt64 := 0
  deriving DecidableEq

namespace MemoryCache

/-- Keep a score in place of one with the same identifier. -/
def put (n : ScoredNetwork) : List ScoredNetwork → List ScoredNetwork
  | [] => [n]
  | m :: ms =>
    if n.key.id = m.key.id then n :: ms
    else if n.key.id < m.key.id then n :: m :: ms
    else m :: put n ms

/-- The filter lets a network pass. -/
def accepts (c : MemoryCache) (k : NetworkKey) : Bool :=
  match c.filter with
  | .none => true
  | .currentNetwork => c.current == some k
  | .scanResults => c.scan.contains k

/-- Take in the records of a batch in order. One of another kind ends it; what came before stays. -/
def absorb (c : MemoryCache) : List ScoredNetwork → Option NetworkType × MemoryCache
  | [] => (none, c)
  | n :: ns =>
    if n.networkType ≠ c.networkType then (some n.networkType, c)
    else if c.accepts n.key then absorb { c with scores := put n c.scores } ns
    else absorb c ns

/-- Offer a batch. The kind that does not belong here comes back, if there is one. -/
def update (c : MemoryCache) (batch : List ScoredNetwork) : Option NetworkType × MemoryCache :=
  absorb { c with updates := c.updates + 1 } batch

/-- What is said of a record of another kind. -/
def misdelivered (c : MemoryCache) (t : NetworkType) : String :=
  t.name ++ " score delivered to " ++ c.networkType.name ++ " cache"

def clear (c : MemoryCache) : MemoryCache := { c with scores := [] }

def setCurrent (c : MemoryCache) (k : Option NetworkKey) : MemoryCache := { c with current := k }

def setScan (c : MemoryCache) (ks : List NetworkKey) : MemoryCache := { c with scan := ks }

/-- The score kept for an identifier. -/
def score? (c : MemoryCache) (id : String) : Option ScoredNetwork :=
  c.scores.find? fun n => n.key.id = id

/-- One line on the whole, then one for each score. -/
def report (c : MemoryCache) : List String :=
  ("  " ++ toString c.scores.length ++ " networks, " ++ toString c.updates.toNat ++ " updates\n") ::
    c.scores.map fun n =>
      "  " ++ n.key.text ++ " score=" ++ toString n.score.toNat ++ " metered=" ++
        (if n.metered then "true" else "false") ++ "\n"

end MemoryCache

end ScoreRelay
