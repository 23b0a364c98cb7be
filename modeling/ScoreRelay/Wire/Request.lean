import ScoreRelay.Wire.Caller
import ScoreRelay.Wire.Envelope
import ScoreRelay.Wire.Network
import ScoreRelay.Wire.Package
import ScoreRelay.Wire.Provider

/-! What can be asked over the control protocol, and how each request is written. -/
namespace ScoreRelay

open Wire Json

/-- The setting was switched. -/
structure SettingChange where
  enabled : Bool
  deriving DecidableEq

/-- A user unlocked the device. -/
structure UserUnlock where
  user : UInt32
  deriving DecidableEq

/-- Scores brought by a caller. -/
structure ScoresUpdate where
  caller : Caller
  networks : List ScoredNetwork
  deriving DecidableEq

/-- Networks whose scores are wanted. -/
structure ScoresRequest where
  networks : List NetworkKey
  deriving DecidableEq

/-- A request that says no more than who asks. -/
structure Credentials where
  caller : Caller
  deriving DecidableEq

/-- The network the device is attached to. -/
structure NetworkCurrent where
  network : Option NetworkKey
  deriving DecidableEq

/-- The networks found by a scan. -/
structure NetworkScan where
  networks : List NetworkKey
  deriving DecidableEq

def SettingChange.json (p : SettingChange) : Json :=
  .object [("recommendations_enabled", .bool p.enabled)]

def SettingChange.decode : Decoder SettingChange := fun s => do
  let r ← Record.of? ["recommendations_enabled"] s
  let enabled ← r.required "recommendations_enabled" bool
  return ⟨enabled⟩

def UserUnlock.json (p : UserUnlock) : Json := .object [("user_id", .int p.user.toNat)]

def UserUnlock.decode : Decoder UserUnlock := fun s => do
  let r ← Record.of? ["user_id"] s
  let user ← r.required "user_id" uint32
  return ⟨user⟩

def ScoresUpdate.json (p : ScoresUpdate) : Json :=
  .object [("caller", p.caller.json), ("networks", .array (p.networks.map ScoredNetwork.json))]

def ScoresUpdate.decode : Decoder ScoresUpdate := fun s => do
  let r ← Record.of? ["caller", "networks"] s
  let caller ← r.required "caller" Caller.decode
  let networks ← r.required "networks" (list ScoredNetwork.decode)
  return ⟨caller, networks⟩

def ScoresRequest.json (p : ScoresRequest) : Json :=
  .object [("networks", .array (p.networks.map NetworkKey.json))]

def ScoresRequest.decode : Decoder ScoresRequest := fun s => do
  let r ← Record.of? ["networks"] s
  let networks ← r.required "networks" (list NetworkKey.decode)
  return ⟨networks⟩

def Credentials.json (p : Credentials) : Json := .object [("caller", p.caller.json)]

def Credentials.decode : Decoder Credentials := fun s => do
  let r ← Record.of? ["caller"] s
  let caller ← r.required "caller" Caller.decode
  return ⟨caller⟩

def NetworkCurrent.json (p : NetworkCurrent) : Json :=
  .object [("network", orNull NetworkKey.json p.network)]

def NetworkCurrent.decode : Decoder NetworkCurrent := fun s => do
  let r ← Record.of? ["network"] s
  let network ← r.optional "network" NetworkKey.decode
  return ⟨network⟩

def NetworkScan.json (p : NetworkScan) : Json :=
  .object [("networks", .array (p.networks.map NetworkKey.json))]

def NetworkScan.decode : Decoder NetworkScan := fun s => do
  let r ← Record.of? ["networks"] s
  let networks ← r.required "networks" (list NetworkKey.decode)
  return ⟨networks⟩

/-- A request of the control protocol. -/
inductive Request where
  | packageEvent (event : PackageEvent)
  | settingChanged (change : SettingChange)
  | userUnlocked (unlock : UserUnlock)
  | scoresUpdate (update : ScoresUpdate)
  | scoresClear (credentials : Credentials)
  | scoresRequest (request : ScoresRequest)
  | recommendation (request : Option RecommendationRequest)
  | dump (credentials : Credentials)
  | cachesList
  | networkCurrent (current : NetworkCurrent)
  | networkScan (scan : NetworkScan)
  deriving DecidableEq

/-- Why a message is no request. -/
inductive Unreadable where
  | unknownType (type : String)
  | payload
  deriving DecidableEq

def Unreadable.message : Unreadable → String
  | .unknownType type => "unknown message type: " ++ type
  | .payload => "invalid payload"

namespace Request

/-- The request in an envelope. The type decides how the payload is read. -/
def ofEnvelope (e : Envelope) : Except Unreadable Request :=
  if e.type = "package.event" then read PackageEvent.decode .packageEvent
  else if e.type = "setting.changed" then read SettingChange.decode .settingChanged
  else if e.type = "user.unlocked" then read UserUnlock.decode .userUnlocked
  else if e.type = "scores.update" then read ScoresUpdate.decode .scoresUpdate
  else if e.type = "scores.clear" then read Credentials.decode .scoresClear
  else if e.type = "scores.request" then read ScoresRequest.decode .scoresRequest
  else if e.type = "recommendation.request" then
    read (nullable RecommendationRequest.decode) .recommendation
  else if e.type = "dump" then read Credentials.decode .dump
  else if e.type = "caches.list" then .ok .cachesList
  else if e.type = "network.current" then read NetworkCurrent.decode .networkCurrent
  else if e.type = "network.scan" then read NetworkScan.decode .networkScan
  else .error (.unknownType e.type)
where
  read {α : Type} (d : Decoder α) (make : α → Request) : Except Unreadable Request :=
    match d e.payload.source with
    | some a => .ok (make a)
    | none => .error .payload

end Request

end ScoreRelay
