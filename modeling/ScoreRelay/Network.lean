import ScoreRelay.Text.Blank

/-! Networks as scorers and caches name them: a kind, a key of kind and identifier, and a score. -/
namespace ScoreRelay

/-- The kinds of network that can be scored, in their fixed order. -/
inductive NetworkType where
  | wifi
  | cellular
  | ethernet
  deriving DecidableEq, Repr, Inhabited

namespace NetworkType

/-- Every kind, in order. -/
def all : List NetworkType := [.wifi, .cellular, .ethernet]

/-- The name a kind is written with. -/
def name : NetworkType → String
  | .wifi => "wifi"
  | .cellular => "cellular"
  | .ethernet => "ethernet"

theorem mem_all (t : NetworkType) : t ∈ all := by cases t <;> simp [all]

theorem name_injective {t u : NetworkType} (h : t.name = u.name) : t = u := by
  cases t <;> cases u <;> simp_all [name]

/-- The spelling that names are compared in: blanks cut off, ASCII capitals made small. -/
def folded (s : String) : String := String.ofList ((Text.trim s).toList.map Char.toLower)

/-- Read a kind from free text. `cell` is short for cellular. What is refused comes back as it
was compared. -/
def ofText (s : String) : Except String NetworkType :=
  let t := folded s
  if t = "wifi" then .ok .wifi
  else if t = "cellular" ∨ t = "cell" then .ok .cellular
  else if t = "ethernet" then .ok .ethernet
  else .error t

/-- What is said of a text that names no kind. -/
def unknownText (t : String) : String := "unknown network type: " ++ t

end NetworkType

/-- Which of the delivered scores a cache keeps. -/
inductive CacheFilter where
  | none
  | currentNetwork
  | scanResults
  deriving DecidableEq, Repr, Inhabited

/-- The name a filter is written with. -/
def CacheFilter.name : CacheFilter → String
  | .none => "none"
  | .currentNetwork => "current_network"
  | .scanResults => "scan_results"

def CacheFilter.all : List CacheFilter := [.none, .currentNetwork, .scanResults]

/-- One network: its kind and its identifier within that kind. -/
structure NetworkKey where
  networkType : NetworkType
  id : String
  deriving DecidableEq, Repr

/-- Kind and identifier with a colon between. -/
def NetworkKey.text (k : NetworkKey) : String := k.networkType.name ++ ":" ++ k.id

/-- A network with the score given to it. -/
structure ScoredNetwork where
  key : NetworkKey
  score : UInt8
  metered : Bool
  deriving DecidableEq, Repr

def ScoredNetwork.networkType (n : ScoredNetwork) : NetworkType := n.key.networkType

end ScoreRelay
