import ScoreRelay.Config.Resolve
import ScoreRelay.Link

/-! The table of bindings kept open over the network. An endpoint is bound if its package has an
address; each binding has a number, under which it is told to stop. -/
namespace ScoreRelay.Tcp

structure Table where
  /-- Packages with the address of their service. -/
  addresses : List (String × String)
  /-- The endpoints bound, each with the number of its binding. -/
  active : List (Endpoint × Nat) := []
  /-- The bindings told to stop, oldest first. -/
  cancelled : List Nat := []
  /-- The number of the next binding. -/
  next : Nat := 0
  deriving DecidableEq

namespace Table

def ofConfig (c : Config) : Table :=
  { addresses := c.providers.filterMap fun p => p.serviceAddr.map fun a => (p.package, a) }

def isBound (t : Table) (e : Endpoint) : Bool := (t.active.lookup e).isSome

/-- The bindings of all endpoints but one. -/
def without (e : Endpoint) (active : List (Endpoint × Nat)) : List (Endpoint × Nat) :=
  active.filter fun b => b.1 ≠ e

/-- Begin a binding. One of the same endpoint is told to stop. -/
def bind (e : Endpoint) (t : Table) : Verdict × Table :=
  if (t.addresses.lookup e.package).isSome then
    (.accepted, { t with
      active := (e, t.next) :: without e t.active
      cancelled := t.cancelled ++ (t.active.lookup e).toList
      next := t.next + 1 })
  else (.refused ("no service address configured for " ++ e.package), t)

/-- End the binding of an endpoint, if there is one. -/
def unbind (e : Endpoint) (t : Table) : Option String × Table :=
  match t.active.lookup e with
  | some n => (none, { t with active := without e t.active, cancelled := t.cancelled ++ [n] })
  | none => (some (e.text ++ " is not bound"), t)

end Table

/-- The binder that keeps such a table. Nothing is reported before a bind is answered. -/
def binder : Binder Table where
  bind e _ t :=
    let (verdict, t) := t.bind e
    (⟨verdict, []⟩, t)
  unbind e t := t.unbind e
  early_le := by simp

end ScoreRelay.Tcp
