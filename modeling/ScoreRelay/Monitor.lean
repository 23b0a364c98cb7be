import ScoreRelay.Fault
import ScoreRelay.Package

/-! Watching package events and the recommendations setting on behalf of targets that may be gone by
the time something happens. A target is called with a state that it may change. -/
namespace ScoreRelay

/-- The setting that is watched. -/
def recommendationsSetting : String := "network_recommendations_enabled"

/-- Packages to watch, and whom to tell. -/
structure PackageMonitor (τ : Type) where
  packages : List String
  target : τ
  deriving DecidableEq

/-- The monitors in force: at most one for packages, at most one for the setting. -/
structure Monitors (τ : Type) where
  packages : Option (PackageMonitor τ) := none
  observer : Option τ := none
  deriving DecidableEq

variable {τ σ : Type}

namespace PackageMonitor

def watches (m : PackageMonitor τ) (package : String) : Bool := m.packages.contains package

/-- The triggers of an event that concern watched packages. -/
def relevant (m : PackageMonitor τ) (e : PackageEvent) : List Trigger :=
  e.triggers.filter fun t => m.watches t.package

/-- Call for one trigger after the other, counting; a crash ends it. -/
def callAll (call : Trigger → σ → Outcome Unit × σ) : List Trigger → Nat → σ → Outcome Nat × σ
  | [], n, s => (.done n, s)
  | t :: ts, n, s =>
    match call t s with
    | (.done (), s) => callAll call ts (n + 1) s
    | (.crashed, s) => (.crashed, s)

/-- Tell the target of an event, if it is still there, and count the calls. -/
def handle (m : PackageMonitor τ) (alive : τ → σ → Bool) (call : τ → Trigger → σ → Outcome Unit × σ)
    (e : PackageEvent) (s : σ) : Outcome Nat × σ :=
  if alive m.target s then callAll (call m.target) (m.relevant e) 0 s else (.done 0, s)

end PackageMonitor

/-- Tell the target that the setting changed, if it is still there. -/
def observe (target : τ) (alive : τ → σ → Bool) (call : τ → σ → Outcome Unit × σ) (s : σ) :
    Outcome Bool × σ :=
  if alive target s then
    match call target s with
    | (.done (), s) => (.done true, s)
    | (.crashed, s) => (.crashed, s)
  else (.done false, s)

namespace Monitors

/-- Watch other packages than before. With none to watch there is no monitor. -/
def registerPackages (m : Monitors τ) (packages : List String) (target : τ) : Bool × Monitors τ :=
  if packages.isEmpty then (false, { m with packages := none })
  else (true, { m with packages := some ⟨packages, target⟩ })

/-- Watch the setting, unless it is watched already. -/
def registerObserver (m : Monitors τ) (target : τ) : Bool × Monitors τ :=
  if m.observer.isSome then (false, m) else (true, { m with observer := some target })

/-- Hand an event to the monitor in force now; what the calls register counts from the next event. -/
def dispatchEvent (m : Monitors τ) (alive : τ → σ → Bool)
    (call : τ → Trigger → σ → Outcome Unit × σ) (e : PackageEvent) (s : σ) : Outcome Nat × σ :=
  match m.packages with
  | some p => p.handle alive call e s
  | none => (.done 0, s)

/-- Hand a change of the setting to the observer in force. -/
def dispatchSetting (m : Monitors τ) (alive : τ → σ → Bool) (call : τ → σ → Outcome Unit × σ)
    (s : σ) : Outcome Bool × σ :=
  match m.observer with
  | some target => observe target alive call s
  | none => (.done false, s)

/-- The packages watched now. -/
def watched (m : Monitors τ) : List String :=
  match m.packages with
  | some p => p.packages
  | none => []

/-- Nothing is watched any more. -/
def clear (_ : Monitors τ) : Monitors τ := {}

end Monitors

end ScoreRelay
