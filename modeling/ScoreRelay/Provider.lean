import ScoreRelay.Network

/-! Providers of scores, their service endpoints, and what is asked of and recommended by them. -/
namespace ScoreRelay

/-- A service within a package. -/
structure Endpoint where
  package : String
  component : String
  deriving DecidableEq, Repr

/-- Package and component with a slash between. -/
def Endpoint.text (e : Endpoint) : String := e.package ++ "/" ++ e.component

/-- A provider that may hold, or holds, the right to give scores. -/
structure Scorer where
  package : String
  uid : UInt32
  service : Option String
  deriving DecidableEq, Repr

/-- Where its recommendation service is reached, if it has one. -/
def Scorer.endpoint (s : Scorer) : Option Endpoint := s.service.map fun c => ⟨s.package, c⟩

/-- A wifi network that can be joined. -/
structure WifiConfiguration where
  ssid : String
  bssid : Option String
  deriving DecidableEq, Repr

/-- A request for a better network than the one selected. -/
structure RecommendationRequest where
  currentSelected : Option WifiConfiguration
  candidates : List WifiConfiguration
  deriving DecidableEq, Repr

/-- The network recommended, if any. -/
structure Recommendation where
  wifiConfiguration : Option WifiConfiguration
  deriving DecidableEq, Repr

end ScoreRelay
