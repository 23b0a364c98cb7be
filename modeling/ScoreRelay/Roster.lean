import ScoreRelay.Config.Resolve

/-! Who is in charge: the first provider in order of configuration that is installed and has a
service, while recommendations are enabled. -/
namespace ScoreRelay

/-- Who is in charge, and which packages could ever be. -/
structure Lineup where
  active : Option Scorer
  candidates : List String
  deriving DecidableEq, Repr

/-- The uid is that of the scorer in charge. -/
def Lineup.isActive (l : Lineup) (uid : UInt32) : Bool :=
  match l.active with
  | some s => s.uid == uid
  | none => false

/-- The configured providers, each with its flag for being installed, and the setting. -/
structure Roster where
  providers : List Provider
  enabled : Bool
  deriving DecidableEq, Repr

namespace Roster

def ofConfig (c : Config) : Roster := ⟨c.providers, c.enabled⟩

/-- Note that a package was installed or removed. Other packages than those of providers do not
matter. -/
def setInstalled (r : Roster) (package : String) (installed : Bool) : Roster :=
  { r with providers := r.providers.map fun p =>
      if p.package = package then { p with installed := installed } else p }

def setEnabled (r : Roster) (enabled : Bool) : Roster := { r with enabled := enabled }

/-- The provider in charge. -/
def active (r : Roster) : Option Scorer :=
  if r.enabled then
    (r.providers.find? fun p => p.service.isSome && p.installed).map fun p =>
      ⟨p.package, p.uid, p.service⟩
  else none

def candidates (r : Roster) : List String := r.providers.map Provider.package

def lineup (r : Roster) : Lineup := ⟨r.active, r.candidates⟩

end Roster

end ScoreRelay
