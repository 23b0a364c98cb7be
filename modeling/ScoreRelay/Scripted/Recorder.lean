import ScoreRelay.Monitor

/-! Named targets of monitors that note their calls, to try monitors with. A target replaced by
another of its name is gone, and monitors that were given it find nobody. -/
namespace ScoreRelay.Scripted

/-- What a recorder does to the monitors when it is told of a package. -/
inductive OnEvent where
  | nothing
  | register (packages : List String)
  | clear
  deriving DecidableEq, Repr

/-- A recorder; `birth` tells it from others that have had its name. -/
structure Recorder where
  name : String
  birth : Nat
  onEvent : OnEvent
  deriving DecidableEq, Repr

/-- Points to a recorder, which may be gone. -/
abbrev Pointer := String × Option Nat

inductive Note where
  | package (name package : String) (force : Bool)
  | setting (name : String)
  deriving DecidableEq, Repr

/-- The monitors with the recorders there are, and the calls noted, oldest first. -/
structure Stage where
  monitors : Monitors Pointer := {}
  recorders : List Recorder := []
  born : Nat := 0
  notes : List Note := []
  deriving DecidableEq

namespace Stage

def find? (s : Stage) (name : String) : Option Recorder := s.recorders.find? fun r => r.name = name

/-- A pointer to the recorder of a name, or to nobody. -/
def point (s : Stage) (name : String) : Pointer := (name, (s.find? name).map (·.birth))

/-- The recorder that a pointer means, if it is still there. -/
def follow (s : Stage) (p : Pointer) : Option Recorder :=
  (s.find? p.1).filter fun r => some r.birth = p.2

def alive (p : Pointer) (s : Stage) : Bool := (s.follow p).isSome

/-- Remove the recorder of a name; false if there is none. -/
def remove (name : String) (s : Stage) : Bool × Stage :=
  ((s.find? name).isSome, { s with recorders := s.recorders.filter fun r => r.name ≠ name })

/-- Set up a recorder in place of one of its name. -/
def place (name : String) (onEvent : OnEvent) (s : Stage) : Stage :=
  let (_, s) := s.remove name
  { s with recorders := ⟨name, s.born, onEvent⟩ :: s.recorders, born := s.born + 1 }

/-- A recorder is told of a package. -/
def onPackage (p : Pointer) (t : Trigger) (s : Stage) : Outcome Unit × Stage :=
  let s := { s with notes := s.notes ++ [Note.package p.1 t.package t.force] }
  match (s.follow p).map Recorder.onEvent with
  | some (.register packages) => (.done (), { s with monitors := (s.monitors.registerPackages packages p).2 })
  | some .clear => (.done (), { s with monitors := s.monitors.clear })
  | _ => (.done (), s)

/-- A recorder is told of the setting. -/
def onSetting (p : Pointer) (s : Stage) : Outcome Unit × Stage :=
  (.done (), { s with notes := s.notes ++ [.setting p.1] })

def dispatchEvent (e : PackageEvent) (s : Stage) : Outcome Nat × Stage :=
  s.monitors.dispatchEvent alive onPackage e s

def dispatchSetting (s : Stage) : Outcome Bool × Stage := s.monitors.dispatchSetting alive onSetting s

end Stage

end ScoreRelay.Scripted
