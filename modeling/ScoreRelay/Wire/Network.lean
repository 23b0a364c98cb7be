import ScoreRelay.Network
import ScoreRelay.Wire.Record

/-! The written forms of network kinds, filters, keys and scores. -/
namespace ScoreRelay

open Wire

def NetworkType.json (t : NetworkType) : Json := .string t.name

def NetworkType.decode : Decoder NetworkType := named NetworkType.all NetworkType.name

def CacheFilter.json (f : CacheFilter) : Json := .string f.name

def CacheFilter.decode : Decoder CacheFilter := named CacheFilter.all CacheFilter.name

def NetworkKey.json (k : NetworkKey) : Json :=
  .object [("type", k.networkType.json), ("id", .string k.id)]

def NetworkKey.decode : Decoder NetworkKey := fun s => do
  let r ← Record.of? ["type", "id"] s
  let networkType ← r.required "type" NetworkType.decode
  let id ← r.required "id" string
  return ⟨networkType, id⟩

def ScoredNetwork.json (n : ScoredNetwork) : Json :=
  .object [("key", n.key.json), ("score", .int n.score.toNat), ("metered", .bool n.metered)]

def ScoredNetwork.decode : Decoder ScoredNetwork := fun s => do
  let r ← Record.of? ["key", "score", "metered"] s
  let key ← r.required "key" NetworkKey.decode
  let score ← r.required "score" uint8
  let metered ← r.defaulted "metered" false bool
  return ⟨key, score, metered⟩

end ScoreRelay
