import ScoreRelay.Toml.Document
import ScoreRelay.Wire.Network

/-! A configuration as it is written down: every field may be missing. It is read from JSON or from
TOML. -/
namespace ScoreRelay

structure ProviderInput where
  package : String := ""
  uid : Option UInt32 := none
  service : Option String := none
  serviceAddr : Option String := none
  installed : Option Bool := none
  deriving DecidableEq

structure CachesInput where
  networkTypes : List String := []
  filter : Option CacheFilter := none
  deriving DecidableEq

/-- Times in milliseconds. -/
structure BinderInput where
  connectTimeout : Option UInt64 := none
  initialBackoff : Option UInt64 := none
  maxBackoff : Option UInt64 := none
  deriving DecidableEq

structure ConfigInput where
  version : UInt32 := 0
  enabled : Option Bool := none
  providers : List ProviderInput := []
  caches : CachesInput := {}
  binder : BinderInput := {}
  deriving DecidableEq

namespace ProviderInput

def fieldNames : List String :=
  ["package", "uid", "recommendation_service", "service_addr", "installed"]

end ProviderInput

def CachesInput.fieldNames : List String := ["network_types", "filter"]

def BinderInput.fieldNames : List String :=
  ["connect_timeout_ms", "initial_backoff_ms", "max_backoff_ms"]

def ConfigInput.fieldNames : List String :=
  ["version", "recommendations_enabled", "providers", "caches", "binder"]

section FromJson

open Wire

def ProviderInput.decode : Decoder ProviderInput := fun s => do
  let r ← Record.of? ProviderInput.fieldNames s
  let package ← r.defaulted "package" "" string
  let uid ← r.optional "uid" uint32
  let service ← r.optional "recommendation_service" string
  let serviceAddr ← r.optional "service_addr" string
  let installed ← r.optional "installed" bool
  return ⟨package, uid, service, serviceAddr, installed⟩

def CachesInput.decode : Decoder CachesInput := fun s => do
  let r ← Record.of? CachesInput.fieldNames s
  let networkTypes ← r.defaulted "network_types" [] (list string)
  let filter ← r.optional "filter" CacheFilter.decode
  return ⟨networkTypes, filter⟩

def BinderInput.decode : Decoder BinderInput := fun s => do
  let r ← Record.of? BinderInput.fieldNames s
  let connectTimeout ← r.optional "connect_timeout_ms" uint64
  let initialBackoff ← r.optional "initial_backoff_ms" uint64
  let maxBackoff ← r.optional "max_backoff_ms" uint64
  return ⟨connectTimeout, initialBackoff, maxBackoff⟩

def ConfigInput.decode : Decoder ConfigInput := fun s => do
  let r ← Record.of? ConfigInput.fieldNames s
  let version ← r.defaulted "version" 0 uint32
  let enabled ← r.optional "recommendations_enabled" bool
  let providers ← r.defaulted "providers" [] (list ProviderInput.decode)
  let caches ← r.defaulted "caches" {} CachesInput.decode
  let binder ← r.defaulted "binder" {} BinderInput.decode
  return ⟨version, enabled, providers, caches, binder⟩

end FromJson

namespace Toml

/-- Reads a typed value from TOML, or refuses it. -/
abbrev Decoder (α : Type) := Toml → Option α

mutual

/-- All numbers in a value can be read and are within 128 bits or finite, so that it can at least be
skipped. -/
def skippable : Toml → Bool
  | .string _ | .boolean _ | .datetime => true
  | .integer i => -(2 ^ 127) ≤ i && i < 2 ^ 128
  | .garbled => false
  | .float finite => finite
  | .array vs | .rows vs => allSkippable vs
  | .table _ ms => membersSkippable ms

def allSkippable : List Toml → Bool
  | [] => true
  | v :: vs => skippable v && allSkippable vs

def membersSkippable : List (String × Toml) → Bool
  | [] => true
  | (_, v) :: ms => skippable v && membersSkippable ms

end

def asString : Decoder String
  | .string s => some s
  | _ => none

def asBool : Decoder Bool
  | .boolean b => some b
  | _ => none

/-- An integer from zero up to, and without, `bound`. -/
def natural (bound : Nat) : Decoder Nat
  | .integer (.ofNat n) => if n < bound then some n else none
  | _ => none

def asUInt32 : Decoder UInt32 := fun v => (natural UInt32.size v).map UInt32.ofNat

def asUInt64 : Decoder UInt64 := fun v => (natural UInt64.size v).map UInt64.ofNat

def asList {α : Type} (d : Decoder α) : Decoder (List α)
  | .array vs | .rows vs => vs.mapM d
  | _ => none

/-- A filter by name, or by a table that maps its name to something empty. -/
def asFilter : Decoder CacheFilter
  | .string s => find s
  | .table _ [(s, .table _ [])] | .table _ [(s, .array [])] => find s
  | _ => none
where
  find (s : String) : Option CacheFilter := CacheFilter.all.find? fun f => f.name = s

/-- The fields of a record, given as a table or as an array in the order of the names; what an array has
beyond them is not looked at. A date or a time counts as a record without fields. -/
def fields? (names : List String) : Toml → Option (List (String × Toml))
  | .table _ ms =>
    if ms.all fun m => names.contains m.1 || skippable m.2 then some ms else none
  | .array vs | .rows vs => some (names.zip vs)
  | .datetime => some []
  | _ => none

/-- A field that stands for `a` when left out. -/
def field {α : Type} (fs : List (String × Toml)) (name : String) (a : α) (d : Decoder α) : Option α :=
  match fs.lookup name with
  | some v => d v
  | none => some a

def some? {α : Type} (d : Decoder α) : Decoder (Option α) := fun v => (d v).map some

end Toml

section FromToml

open Toml

def ProviderInput.ofToml : Toml.Decoder ProviderInput := fun v => do
  let fs ← fields? ProviderInput.fieldNames v
  let package ← field fs "package" "" asString
  let uid ← field fs "uid" none (some? asUInt32)
  let service ← field fs "recommendation_service" none (some? asString)
  let serviceAddr ← field fs "service_addr" none (some? asString)
  let installed ← field fs "installed" none (some? asBool)
  return ⟨package, uid, service, serviceAddr, installed⟩

def CachesInput.ofToml : Toml.Decoder CachesInput := fun v => do
  let fs ← fields? CachesInput.fieldNames v
  let networkTypes ← field fs "network_types" [] (asList asString)
  let filter ← field fs "filter" none (some? asFilter)
  return ⟨networkTypes, filter⟩

def BinderInput.ofToml : Toml.Decoder BinderInput := fun v => do
  let fs ← fields? BinderInput.fieldNames v
  let connectTimeout ← field fs "connect_timeout_ms" none (some? asUInt64)
  let initialBackoff ← field fs "initial_backoff_ms" none (some? asUInt64)
  let maxBackoff ← field fs "max_backoff_ms" none (some? asUInt64)
  return ⟨connectTimeout, initialBackoff, maxBackoff⟩

def ConfigInput.ofToml : Toml.Decoder ConfigInput := fun v => do
  let fs ← fields? ConfigInput.fieldNames v
  let version ← field fs "version" 0 asUInt32
  let enabled ← field fs "recommendations_enabled" none (some? asBool)
  let providers ← field fs "providers" [] (asList ProviderInput.ofToml)
  let caches ← field fs "caches" {} CachesInput.ofToml
  let binder ← field fs "binder" {} BinderInput.ofToml
  return ⟨version, enabled, providers, caches, binder⟩

end FromToml

end ScoreRelay
