import ScoreRelay.Link

/-! A binder that answers as it is told, to try a link or a service with. -/
namespace ScoreRelay.Scripted

/-- How requests to bind are answered. -/
inductive BindMode where
  | accept
  /-- Report the service as up, then accept. -/
  | auto
  | refuse
  /-- Report the service as up, then refuse. -/
  | autoRefuse
  | crash
  deriving DecidableEq, Repr

structure BinderScript where
  mode : BindMode := .accept
  unbindFails : Bool := false
  deriving DecidableEq, Repr

def BindMode.answer (session : Session) : BindMode → BindAnswer
  | .accept => ⟨.accepted, []⟩
  | .auto => ⟨.accepted, [(session, .connected)]⟩
  | .refuse => ⟨.refused "no such service", []⟩
  | .autoRefuse => ⟨.refused "no such service", [(session, .connected)]⟩
  | .crash => ⟨.crashed, []⟩

theorem BindMode.early_le (m : BindMode) (session : Session) :
    ∀ r ∈ (m.answer session).early, r.1 ≤ session := by
  cases m <;> simp [answer]

def binder : Binder BinderScript where
  bind _ session s := (s.mode.answer session, s)
  unbind e s := (if s.unbindFails then some (e.text ++ " stays bound") else none, s)
  early_le _ session s := s.mode.early_le session

end ScoreRelay.Scripted
