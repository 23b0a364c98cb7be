import ScoreRelay.Network
import ScoreRelay.Provider

/-! The ways in which an operation of the service can fail. -/
namespace ScoreRelay

inductive Fault where
  | permissionDenied (text : String)
  | listenerUnreachable (cache : String) (networkType : NetworkType) (cause : String)
  | bindFailed (endpoint : Endpoint) (cause : String)
  | unsupportedOperation (what : String)
  | config (text : String)
  | io (text : String)
  deriving DecidableEq, Repr

/-- The wording of a failure. -/
def Fault.message : Fault → String
  | .permissionDenied text => "permission denied: " ++ text
  | .listenerUnreachable cache t cause =>
    "score cache " ++ cache ++ " (" ++ t.name ++ ") unreachable: " ++ cause
  | .bindFailed e cause => "bind to " ++ e.text ++ " failed: " ++ cause
  | .unsupportedOperation what => what ++ " is not supported"
  | .config text => "invalid config: " ++ text
  | .io text => "i/o error: " ++ text

/-- How a call ends that hands control to a collaborator: with a result, or unwound because the
collaborator crashed. -/
inductive Outcome (α : Type) where
  | done (a : α)
  | crashed
  deriving DecidableEq, Repr

end ScoreRelay
