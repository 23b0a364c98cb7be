/-! Events about installed packages, and the re-evaluations that each of them calls for. -/
namespace ScoreRelay

/-- What happened to a package, or to several at once. -/
inductive PackageEvent where
  | added (package : String)
  | removed (package : String)
  | modified (package : String)
  | updateFinished (package : String)
  | forceStopped (packages : List String) (executed : Bool)
  deriving DecidableEq, Repr

/-- A package to look at again; `force` asks for the link to it to be dropped first. -/
structure Trigger where
  package : String
  force : Bool
  deriving DecidableEq, Repr

/-- The triggers of an event, in its order. New, gone or replaced code always drops the link, a
changed setting of the package does not, and a stop that was only asked about touches nothing. -/
def PackageEvent.triggers : PackageEvent → List Trigger
  | .added p | .removed p | .updateFinished p => [⟨p, true⟩]
  | .modified p => [⟨p, false⟩]
  | .forceStopped ps executed => if executed then ps.map (⟨·, true⟩) else []

/-- What an event says about a package being installed. -/
def PackageEvent.installs : PackageEvent → Option (String × Bool)
  | .added p | .updateFinished p => some (p, true)
  | .removed p => some (p, false)
  | .modified _ | .forceStopped _ _ => none

end ScoreRelay
