import ScoreRelay.Config.Input
import ScoreRelay.Fault

/-! The configuration in force, made from what was written down: blanks are cut, repeats dropped,
and every provider gets a uid of its own. -/
namespace ScoreRelay

/-- A package that may come to give scores. -/
structure Provider where
  package : String
  uid : UInt32
  service : Option String
  /-- Where its service is reached over the network. -/
  serviceAddr : Option String
  installed : Bool
  deriving DecidableEq, Repr

/-- Times in milliseconds. -/
structure BinderConfig where
  connectTimeout : UInt64 := 5000
  initialBackoff : UInt64 := 500
  maxBackoff : UInt64 := 30000
  deriving DecidableEq, Repr

structure Config where
  version : UInt32 := 1
  enabled : Bool := true
  providers : List Provider := []
  cacheTypes : List NetworkType := []
  cacheFilter : CacheFilter := .none
  binder : BinderConfig := {}
  deriving DecidableEq, Repr

/-- Why a configuration is refused. -/
inductive ConfigError where
  | unreadable
  | unsupportedVersion (version : UInt32)
  | uidInUse (uid : UInt32) (package : String)
  | unknownNetworkType (text : String)
  deriving DecidableEq, Repr

namespace ConfigError

def message : ConfigError → String
  | .unreadable => "invalid config TOML"
  | .unsupportedVersion v => "unsupported config version " ++ toString v.toNat
  | .uidInUse uid package =>
    "uid " ++ toString uid.toNat ++ " of provider " ++ package ++ " is already in use"
  | .unknownNetworkType t => NetworkType.unknownText t

def fault (e : ConfigError) : Fault := .config e.message

end ConfigError

namespace ConfigInput

/-- A provider that is kept: its place in the list as written, and its package without blanks. -/
structure Kept where
  index : Nat
  package : String
  input : ProviderInput
  deriving DecidableEq

/-- The providers with a package, the first of each, from the place `index` on. -/
def keep (seen : List String) (index : Nat) : List ProviderInput → List Kept
  | [] => []
  | p :: ps =>
    let package := Text.trim p.package
    if package.isEmpty || seen.contains package then keep seen (index + 1) ps
    else ⟨index, package, p⟩ :: keep (package :: seen) (index + 1) ps

/-- The uids asked for, latest first. Asking for one twice is refused. -/
def claimed (taken : List UInt32) : List Kept → Except ConfigError (List UInt32)
  | [] => .ok taken
  | k :: ks =>
    match k.input.uid with
    | none => claimed taken ks
    | some uid =>
      if taken.contains uid then .error (.uidInUse uid k.package) else claimed (uid :: taken) ks

/-- The uid that the first provider gets if it asks for none. -/
def firstUid : Nat := 10000

/-- Count up from a uid until one is not taken. Each step goes past another uid that is, so there need be no
more steps than uids taken. -/
def countUp (taken : List UInt32) : Nat → UInt32 → UInt32
  | 0, uid => uid
  | steps + 1, uid => if taken.contains uid then countUp taken steps (uid + 1) else uid

/-- A text without blanks at its ends, if anything is left. -/
def nonBlank (s : Option String) : Option String :=
  match s with
  | none => none
  | some s => if (Text.trim s).isEmpty then none else some (Text.trim s)

/-- Give every kept provider its uid: the one it asks for, or the first one not taken on counting up from
the place where it stands. -/
def allot (taken : List UInt32) : List Kept → List Provider
  | [] => []
  | k :: ks =>
    let make (uid : UInt32) : Provider :=
      ⟨k.package, uid, nonBlank k.input.service, nonBlank k.input.serviceAddr,
        k.input.installed.getD true⟩
    match k.input.uid with
    | some uid => make uid :: allot taken ks
    | none =>
      let uid := countUp taken taken.length (UInt32.ofNat (firstUid + k.index))
      make uid :: allot (uid :: taken) ks

/-- The kinds named, the first of each, after those in `found`. -/
def readTypes (found : List NetworkType) : List String → Except ConfigError (List NetworkType)
  | [] => .ok found
  | s :: ss =>
    match NetworkType.ofText s with
    | .error t => .error (.unknownNetworkType t)
    | .ok t => readTypes (if found.contains t then found else found ++ [t]) ss

/-- Times left out are the usual ones, and waiting never ends below where it begins. -/
def resolveBinder (b : BinderInput) : BinderConfig :=
  let usual : BinderConfig := {}
  let initial := b.initialBackoff.getD usual.initialBackoff
  ⟨b.connectTimeout.getD usual.connectTimeout, initial,
    max (b.maxBackoff.getD usual.maxBackoff) initial⟩

/-- The configuration in force. Version 0 stands for the only version there is. -/
def resolve (c : ConfigInput) : Except ConfigError Config :=
  let version := if c.version = 0 then 1 else c.version
  if version ≠ 1 then .error (.unsupportedVersion version)
  else
    let kept := keep [] 0 c.providers
    match claimed [] kept with
    | .error e => .error e
    | .ok taken =>
      match readTypes [] c.caches.networkTypes with
      | .error e => .error e
      | .ok types =>
        .ok ⟨version, c.enabled.getD true, allot taken kept, types,
          c.caches.filter.getD .none, resolveBinder c.binder⟩

end ConfigInput

namespace Config

/-- Read a TOML text. A blank one stands for the usual configuration. -/
def ofToml (text : String) : Except ConfigError Config :=
  if Text.allBlank text then .ok {}
  else
    match (Toml.ofText? text).bind ConfigInput.ofToml with
    | some input => input.resolve
    | none => .error .unreadable

/-- The provider of a package. -/
def provider? (c : Config) (package : String) : Option Provider :=
  c.providers.find? fun p => p.package = package

end Config

end ScoreRelay
