import ScoreRelay.Proofs.Registry.Catalog

/-! Operations that look at each slot before they use it: what is filled has to be there and vacant, what is
read or given up has to hold a registration. As long as a registry is sound they find nothing amiss, and come
to what the plain operations come to. -/
namespace ScoreRelay.Registry

variable {κ : Type} {r : Registry κ} {reg : Registration κ} {t : NetworkType} {id : String}
  {slot : Nat}

/-- The slot holds the cache with the given identifier. Nothing if it holds no registration. -/
def holds? (r : Registry κ) (id : String) (slot : Nat) : Option Bool :=
  (r.at? slot).map fun reg => reg.id == id

/-- The first slot of a kind that holds the identifier, if there is one. Nothing if one of the slots up to it
holds no registration. -/
def slotOf? (r : Registry κ) (t : NetworkType) (id : String) : Option (Option Nat) :=
  (r.index t).findM? (r.holds? id)

/-- Put a registration into a slot. Nothing unless the slot is there and vacant. -/
def fill? (r : Registry κ) (slot : Nat) (reg : Registration κ) : Option (Registry κ) :=
  match r.slots[slot]? with
  | some none => some { r with slots := r.slots.set slot (some reg) }
  | _ => none

/-- Give a slot up to be used again. Nothing if it holds no registration. -/
def release? (r : Registry κ) (slot : Nat) : Option (Registry κ) :=
  (r.at? slot).map fun _ => r.release slot

def insert? (r : Registry κ) (reg : Registration κ) : Option (Nat × Registry κ) :=
  match r.free with
  | slot :: free => do
    let r ← r.fill? slot reg
    return (slot, { r with free := free })
  | [] => some (r.slots.length, { r with slots := r.slots ++ [some reg] })

def register? (r : Registry κ) (reg : Registration κ) : Option (RegisterResult × Registry κ) := do
  if (← r.slotOf? reg.networkType reg.id).isSome then
    return (.alreadyRegistered, r)
  let (slot, r) ← r.insert? reg
  let entry := r.index reg.networkType ++ [slot]
  return (.registered, { r with entries := r.entries.set reg.networkType (some entry) })

def unregister? (r : Registry κ) (t : NetworkType) (id : String) :
    Option (UnregisterResult × Registry κ) := do
  match ← r.slotOf? t id with
  | none => return (.notFound, r)
  | some slot =>
    let r ← r.release? slot
    let rest := (r.index t).erase slot
    let r := { r with entries := r.entries.set t (some rest) }
    return (.unregistered, if rest.isEmpty then { r with entries := r.entries.set t none } else r)

def operate? (r : Registry κ) : Operation κ → Option (OperationResult × Registry κ)
  | .register reg => (r.register? reg).map fun (result, r) => (.register result, r)
  | .unregister t id => (r.unregister? t id).map fun (result, r) => (.unregister result, r)

/-- The registrations of a kind, in order. Nothing if one of its slots holds none. -/
def registrations? (r : Registry κ) (t : NetworkType) : Option (List (Registration κ)) :=
  (r.index t).mapM r.at?

theorem exists_of_mem_index (h : r.Sound) (hi : slot ∈ r.index t) :
    ∃ reg, r.at? slot = some reg := by
  obtain ⟨reg, hr, -⟩ := (h.mem_index t slot).mp hi
  exact ⟨reg, hr⟩

theorem holds?_of_mem_index (h : r.Sound) (hi : slot ∈ r.index t) :
    r.holds? id slot = some (r.holds id slot) := by
  obtain ⟨reg, hr⟩ := exists_of_mem_index h hi
  simp [holds?, holds, hr]

theorem slotOf?_eq (h : r.Sound) (t : NetworkType) (id : String) :
    r.slotOf? t id = some ((r.index t).find? (r.holds id)) := by
  have hall : ∀ slot ∈ r.index t, r.holds? id slot = some (r.holds id slot) :=
    fun _ hi => holds?_of_mem_index h hi
  unfold slotOf?
  generalize r.index t = slots at hall
  induction slots with
  | nil => rfl
  | cons slot slots ih =>
    obtain ⟨hslot, hslots⟩ := List.forall_mem_cons.mp hall
    rw [List.findM?, hslot, List.find?_cons, ih hslots]
    cases r.holds id slot <;> rfl

theorem insert?_eq (h : r.Sound) (reg : Registration κ) : r.insert? reg = some (r.insert reg) := by
  unfold insert? insert
  cases hf : r.free with
  | nil => rfl
  | cons slot free =>
    have hs : r.slots[slot]? = some none := (h.mem_free slot).mp (by simp [hf])
    simp [fill?, hs]

theorem register?_eq (h : r.Sound) (reg : Registration κ) :
    r.register? reg = some (r.register reg) := by
  simp only [register?, register, knows_eq, slotOf?_eq h, insert?_eq h, Option.bind_eq_bind,
    Option.bind_some, List.isSome_find?]
  split <;> rfl

theorem unregister?_eq (h : r.Sound) (t : NetworkType) (id : String) :
    r.unregister? t id = some (r.unregister t id) := by
  simp only [unregister?, unregister_eq, slotOf?_eq h, Option.bind_eq_bind, Option.bind_some]
  cases hf : (r.index t).find? (r.holds id) with
  | none => rfl
  | some slot =>
    obtain ⟨reg, hr⟩ := exists_of_mem_index h (List.mem_of_find?_eq_some hf)
    have hi : (r.release slot).index t = r.index t := rfl
    simp only [release?, hr, Option.map_some, Option.bind_some, hi, ByType.set_set, vacate]
    split <;> rfl

/-- No operation comes upon a slot that is missing, is taken when it should be vacant or is vacant when it
should be taken. -/
theorem operate?_eq (h : r.Sound) (op : Operation κ) : r.operate? op = some (r.operate op) := by
  cases op with
  | register reg =>
    rw [operate?, register?_eq h]
    rfl
  | unregister t id =>
    rw [operate?, unregister?_eq h]
    rfl

-- a free list with a slot that is not there is noticed
example (reg : Registration κ) : ({ free := [0] } : Registry κ).operate? (.register reg) = none := by
  cases reg with
  | mk t => cases t <;> rfl

theorem registrations?_eq (h : r.Sound) (t : NetworkType) :
    r.registrations? t = some (r.registrations t) := by
  have hall : ∀ slot ∈ r.index t, ∃ reg, r.at? slot = some reg :=
    fun _ hi => exists_of_mem_index h hi
  unfold registrations? registrations
  generalize r.index t = slots at hall
  induction slots with
  | nil => rfl
  | cons slot slots ih =>
    obtain ⟨⟨reg, hr⟩, hslots⟩ := List.forall_mem_cons.mp hall
    rw [List.mapM_cons, hr, ih hslots, List.filterMap_cons, hr]
    rfl

end ScoreRelay.Registry
