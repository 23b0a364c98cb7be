import ScoreRelay.Network.ByType

/-! The registered caches. Registrations live in numbered slots that are used again; a kind of network
has an entry, with the slots of its registrations in the order they were made, as long as there are any. -/
namespace ScoreRelay

/-- A cache registered for a kind of network. `cache` is whatever reaches it. -/
structure Registration (κ : Type) where
  networkType : NetworkType
  id : String
  filter : CacheFilter
  cache : κ
  deriving DecidableEq

/-- The registrations of one kind at some moment. -/
structure ListenerSet (κ : Type) where
  networkType : NetworkType
  registrations : List (Registration κ)
  deriving DecidableEq

structure Registry (κ : Type) where
  slots : List (Option (Registration κ)) := []
  /-- Vacant slots, the one to be used next first. -/
  free : List Nat := []
  /-- The slots of each kind that has an entry. -/
  entries : ByType (Option (List Nat)) := .const none
  deriving DecidableEq

inductive RegisterResult where
  | registered
  | alreadyRegistered
  deriving DecidableEq, Repr

inductive UnregisterResult where
  | unregistered
  | notFound
  deriving DecidableEq, Repr

namespace Registry

variable {κ : Type}

/-- The registration in a slot. -/
def at? (r : Registry κ) (slot : Nat) : Option (Registration κ) := (r.slots[slot]?).join

/-- The slot holds the cache with the given identifier. -/
def holds (r : Registry κ) (id : String) (slot : Nat) : Bool :=
  match r.at? slot with
  | some reg => reg.id == id
  | none => false

/-- Put a registration into a vacant slot, or into a new one behind the others. -/
def insert (r : Registry κ) (reg : Registration κ) : Nat × Registry κ :=
  match r.free with
  | slot :: free => (slot, { r with slots := r.slots.set slot (some reg), free := free })
  | [] => (r.slots.length, { r with slots := r.slots ++ [some reg] })

/-- The slots of a kind, none if it has no entry. -/
def index (r : Registry κ) (t : NetworkType) : List Nat := (r.entries.get t).getD []

@[simp] theorem index_empty (t : NetworkType) : ({} : Registry κ).index t = [] := by simp [index]

/-- The identifier is registered for the kind. -/
def knows (r : Registry κ) (t : NetworkType) (id : String) : Bool :=
  match r.entries.get t with
  | some entry => entry.any (r.holds id)
  | none => false

/-- Register a cache. An identifier that is registered for the kind already stays as it is. The first
registration of a kind makes its entry. -/
def register (r : Registry κ) (reg : Registration κ) : RegisterResult × Registry κ :=
  if r.knows reg.networkType reg.id then (.alreadyRegistered, r)
  else
    let (slot, r) := r.insert reg
    let entry := r.index reg.networkType ++ [slot]
    (.registered, { r with entries := r.entries.set reg.networkType (some entry) })

/-- Give a slot up to be used again. -/
def release (r : Registry κ) (slot : Nat) : Registry κ :=
  { r with slots := r.slots.set slot none, free := slot :: r.free }

/-- Remove the registration of an identifier for a kind. The last one takes the entry of its kind along. -/
def unregister (r : Registry κ) (t : NetworkType) (id : String) : UnregisterResult × Registry κ :=
  match r.entries.get t with
  | none => (.notFound, r)
  | some entry =>
    match entry.find? (r.holds id) with
    | none => (.notFound, r)
    | some slot =>
      let rest := entry.erase slot
      let r := { r.release slot with entries := r.entries.set t (some rest) }
      (.unregistered, if rest.isEmpty then { r with entries := r.entries.set t none } else r)

/-- The registrations in the slots of an entry. -/
def setOf (r : Registry κ) (t : NetworkType) (entry : List Nat) : ListenerSet κ :=
  ⟨t, entry.filterMap r.at?⟩

/-- The kinds that have an entry, in order. -/
def networkTypes (r : Registry κ) : List NetworkType :=
  NetworkType.all.filter fun t => (r.entries.get t).isSome

/-- The registrations of a kind, if it has an entry. -/
def snapshot (r : Registry κ) (t : NetworkType) : Option (ListenerSet κ) :=
  (r.entries.get t).map (r.setOf t)

/-- The registrations of all kinds that have an entry. -/
def snapshotAll (r : Registry κ) : List (ListenerSet κ) := NetworkType.all.filterMap r.snapshot

def listenerCount (r : Registry κ) (t : NetworkType) : Nat :=
  ((r.entries.get t).map List.length).getD 0

def isEmpty (r : Registry κ) : Bool := r.networkTypes.isEmpty

end Registry

end ScoreRelay
