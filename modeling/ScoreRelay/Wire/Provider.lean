import ScoreRelay.Provider
import ScoreRelay.Wire.Record

/-! The written forms of endpoints, scorers and recommendations. -/
namespace ScoreRelay

open Wire

def Endpoint.json (e : Endpoint) : Json :=
  .object [("package", .string e.package), ("component", .string e.component)]

def Endpoint.decode : Decoder Endpoint := fun s => do
  let r ← Record.of? ["package", "component"] s
  let package ← r.required "package" string
  let component ← r.required "component" string
  return ⟨package, component⟩

def Scorer.json (s : Scorer) : Json :=
  .object [("package_name", .string s.package), ("uid", .int s.uid.toNat),
    ("recommendation_service", orNull .string s.service)]

def Scorer.decode : Decoder Scorer := fun s => do
  let r ← Record.of? ["package_name", "uid", "recommendation_service"] s
  let package ← r.required "package_name" string
  let uid ← r.required "uid" uint32
  let service ← r.nullable "recommendation_service" string
  return ⟨package, uid, service⟩

def WifiConfiguration.json (w : WifiConfiguration) : Json :=
  .object (("ssid", .string w.ssid) :: unlessMissing "bssid" .string w.bssid)

def WifiConfiguration.decode : Decoder WifiConfiguration := fun s => do
  let r ← Record.of? ["ssid", "bssid"] s
  let ssid ← r.required "ssid" string
  let bssid ← r.optional "bssid" string
  return ⟨ssid, bssid⟩

def RecommendationRequest.json (q : RecommendationRequest) : Json :=
  .object [("current_selected", orNull WifiConfiguration.json q.currentSelected),
    ("candidates", .array (q.candidates.map WifiConfiguration.json))]

def RecommendationRequest.decode : Decoder RecommendationRequest := fun s => do
  let r ← Record.of? ["current_selected", "candidates"] s
  let currentSelected ← r.optional "current_selected" WifiConfiguration.decode
  let candidates ← r.defaulted "candidates" [] (list WifiConfiguration.decode)
  return ⟨currentSelected, candidates⟩

def Recommendation.json (a : Recommendation) : Json :=
  .object [("wifi_configuration", orNull WifiConfiguration.json a.wifiConfiguration)]

def Recommendation.decode : Decoder Recommendation := fun s => do
  let r ← Record.of? ["wifi_configuration"] s
  let wifiConfiguration ← r.nullable "wifi_configuration" WifiConfiguration.decode
  return ⟨wifiConfiguration⟩

end ScoreRelay
