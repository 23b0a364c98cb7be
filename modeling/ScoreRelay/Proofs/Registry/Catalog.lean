import Mathlib.Data.List.Basic
import Mathlib.Logic.Function.Basic
import ScoreRelay.Proofs.Registry.Slots

/-! What a registry shows of itself is an ordered map: for each kind of network the registrations in the
order they were made, whatever slots they are in. -/
namespace ScoreRelay

variable {κ : Type} {reg : Registration κ} {t : NetworkType} {id : String}

/-- For each kind the registrations made for it, oldest first, no identifier twice. A kind without any is
absent from all that is shown. -/
structure Catalog (κ : Type) where
  entries : NetworkType → List (Registration κ)
  own : ∀ t, ∀ reg ∈ entries t, reg.networkType = t
  distinct : ∀ t, ((entries t).map Registration.id).Nodup

namespace Catalog

def empty : Catalog κ where
  entries _ := []
  own := by simp
  distinct := by simp

variable {c : Catalog κ}

/-- A new identifier goes behind the others of its kind; a known one stays as it is. -/
def register (c : Catalog κ) (reg : Registration κ) : RegisterResult × Catalog κ :=
  if h : reg.id ∈ (c.entries reg.networkType).map Registration.id then (.alreadyRegistered, c)
  else (.registered,
    { entries := Function.update c.entries reg.networkType (c.entries reg.networkType ++ [reg])
      own := by
        intro t reg' hr
        rw [Function.update_apply] at hr
        split at hr
        · rename_i ht
          rcases List.mem_append.mp hr with hr | hr
          · rw [c.own _ _ hr, ht]
          · rw [List.mem_singleton.mp hr, ht]
        · exact c.own t reg' hr
      distinct := by
        intro t
        rw [Function.update_apply]
        split
        · rw [List.map_append]
          exact List.nodup_append.mpr ⟨c.distinct _, by simp, fun a ha b hb he =>
            h (List.mem_singleton.mp hb ▸ he ▸ ha)⟩
        · exact c.distinct t })

/-- The identifier goes, and the others of its kind keep their order. -/
def unregister (c : Catalog κ) (t : NetworkType) (id : String) : UnregisterResult × Catalog κ :=
  if id ∈ (c.entries t).map Registration.id then
    (.unregistered,
      { entries := Function.update c.entries t ((c.entries t).filter fun reg => reg.id ≠ id)
        own := by
          intro u reg hr
          rw [Function.update_apply] at hr
          split at hr
          · rename_i hu
            rw [c.own _ _ (List.mem_of_mem_filter hr), hu]
          · exact c.own u reg hr
        distinct := by
          intro u
          rw [Function.update_apply]
          split
          · exact (c.distinct t).sublist (List.filter_sublist.map _)
          · exact c.distinct u })
  else (.notFound, c)

/-- The kinds that are not absent, in order. -/
def networkTypes (c : Catalog κ) : List NetworkType :=
  NetworkType.all.filter fun t => !(c.entries t).isEmpty

def snapshot (c : Catalog κ) (t : NetworkType) : Option (ListenerSet κ) :=
  if (c.entries t).isEmpty then none else some ⟨t, c.entries t⟩

def snapshotAll (c : Catalog κ) : List (ListenerSet κ) :=
  c.networkTypes.map fun t => ⟨t, c.entries t⟩

end Catalog

namespace Registry

variable {r : Registry κ} {c : Catalog κ}

/-- What changes a registry. -/
inductive Operation (κ : Type) where
  | register (reg : Registration κ)
  | unregister (t : NetworkType) (id : String)

inductive OperationResult where
  | register (result : RegisterResult)
  | unregister (result : UnregisterResult)
  deriving DecidableEq

def operate (r : Registry κ) : Operation κ → OperationResult × Registry κ
  | .register reg => (.register (r.register reg).1, (r.register reg).2)
  | .unregister t id => (.unregister (r.unregister t id).1, (r.unregister t id).2)

/-- The results of some operations, first one first, and what they come to. -/
def operateAll (r : Registry κ) : List (Operation κ) → List OperationResult × Registry κ
  | [] => ([], r)
  | op :: ops =>
    let (result, r) := r.operate op
    let (results, r) := r.operateAll ops
    (result :: results, r)

end Registry

namespace Catalog

variable {c : Catalog κ}

def operate (c : Catalog κ) : Registry.Operation κ → Registry.OperationResult × Catalog κ
  | .register reg => (.register (c.register reg).1, (c.register reg).2)
  | .unregister t id => (.unregister (c.unregister t id).1, (c.unregister t id).2)

def operateAll (c : Catalog κ) :
    List (Registry.Operation κ) → List Registry.OperationResult × Catalog κ
  | [] => ([], c)
  | op :: ops =>
    let (result, c) := c.operate op
    let (results, c) := c.operateAll ops
    (result :: results, c)

end Catalog

namespace Registry

variable {r : Registry κ} {c : Catalog κ}

/-- The registry holds what the catalog says, in the same order. -/
structure Shows (r : Registry κ) (c : Catalog κ) : Prop where
  sound : r.Sound
  registrations : ∀ t, r.registrations t = c.entries t

theorem shows_empty : Shows ({} : Registry κ) Catalog.empty where
  sound := sound_empty
  registrations := by simp [Registry.registrations, Catalog.empty]

/-- The two answer alike, and come to the same. -/
def Agree {α : Type} (x : α × Registry κ) (y : α × Catalog κ) : Prop := x.1 = y.1 ∧ Shows x.2 y.2

theorem agree_register (h : Shows r c) (reg : Registration κ) :
    Agree (r.register reg) (c.register reg) := by
  have hm : (∃ reg' ∈ r.registrations reg.networkType, reg'.id = reg.id) ↔
      reg.id ∈ (c.entries reg.networkType).map Registration.id := by
    rw [h.registrations, List.mem_map]
  rcases register_cases r reg with ⟨hk, hr⟩ | ⟨hk, hr⟩
  · rw [hr, Catalog.register, dif_pos (hm.mp hk)]
    exact ⟨rfl, h⟩
  · have hn : reg.id ∉ (c.entries reg.networkType).map Registration.id := by
      rw [← hm]
      simpa using hk
    rw [hr, Catalog.register, dif_neg hn]
    refine ⟨rfl, sound_enter h.sound, ?_⟩
    intro t
    rw [registrations_enter h.sound, h.registrations]
    change _ = Function.update c.entries reg.networkType _ t
    rw [Function.update_apply]
    split
    · rename_i ht
      rw [ht]
    · rfl

/-- With distinct identifiers the first one found is the only one. -/
theorem filter_ne_id {front back : List (Registration κ)}
    (hn : ((front ++ reg :: back).map Registration.id).Nodup) :
    (front ++ reg :: back).filter (fun reg' => reg'.id ≠ reg.id) = front ++ back := by
  rw [List.map_append, List.map_cons] at hn
  have hm := (List.nodup_cons.mp (List.perm_middle.nodup_iff.mp hn)).1
  rw [← List.map_append] at hm
  have hne : ∀ reg' ∈ front ++ back, reg'.id ≠ reg.id := fun reg' hr he =>
    hm (he ▸ List.mem_map_of_mem hr)
  have hfront : front.filter (fun reg' => reg'.id ≠ reg.id) = front :=
    List.filter_eq_self.mpr fun reg' hr => by simpa using hne reg' (by simp [hr])
  have hback : back.filter (fun reg' => reg'.id ≠ reg.id) = back :=
    List.filter_eq_self.mpr fun reg' hr => by simpa using hne reg' (by simp [hr])
  rw [List.filter_append, List.filter_cons_of_neg (by simp), hfront, hback]

theorem agree_unregister (h : Shows r c) (t : NetworkType) (id : String) :
    Agree (r.unregister t id) (c.unregister t id) := by
  rcases unregister_cases r t id with
    ⟨hk, hr⟩ | ⟨front, slot, back, reg, hi, hs, rfl, hr⟩
  · have hn : id ∉ (c.entries t).map Registration.id := by
      rw [← h.registrations, List.mem_map]
      simpa using hk
    rw [hr, Catalog.unregister, if_neg hn]
    exact ⟨rfl, h⟩
  · obtain rfl : reg.networkType = t := networkType_of_mem_index h.sound (by simp [hi]) hs
    have he : c.entries reg.networkType =
        front.filterMap r.at? ++ reg :: back.filterMap r.at? := by
      rw [← h.registrations, registrations, hi, List.filterMap_append, List.filterMap_cons, hs]
    rw [hr, Catalog.unregister, if_pos (by simp [he])]
    refine ⟨rfl, sound_vacate h.sound hs rfl, ?_⟩
    intro t
    rw [registrations_vacate h.sound hs hi]
    change _ = Function.update c.entries reg.networkType _ t
    rw [Function.update_apply]
    split
    · rw [he, filter_ne_id (he ▸ c.distinct reg.networkType)]
    · exact h.registrations t

theorem agree_operate (h : Shows r c) (op : Operation κ) : Agree (r.operate op) (c.operate op) := by
  cases op with
  | register reg =>
    obtain ⟨hr, hs⟩ := agree_register h reg
    exact ⟨congrArg OperationResult.register hr, hs⟩
  | unregister t id =>
    obtain ⟨hr, hs⟩ := agree_unregister h t id
    exact ⟨congrArg OperationResult.unregister hr, hs⟩

theorem agree_operateAll (h : Shows r c) (ops : List (Operation κ)) :
    Agree (r.operateAll ops) (c.operateAll ops) := by
  induction ops generalizing r c with
  | nil => exact ⟨rfl, h⟩
  | cons op ops ih =>
    obtain ⟨hr, hs⟩ := agree_operate h op
    obtain ⟨hrs, hss⟩ := ih hs
    exact ⟨congrArg₂ List.cons hr hrs, hss⟩

/-- The index of a kind has as many slots as there are registrations. -/
theorem length_registrations (h : r.Sound) (t : NetworkType) :
    (r.registrations t).length = (r.index t).length := by
  have hall : ∀ i ∈ r.index t, (r.at? i).isSome := by
    intro i hi
    obtain ⟨reg, hr, -⟩ := (h.mem_index t i).mp hi
    simp [hr]
  rw [registrations]
  generalize r.index t = slots at hall
  induction slots with
  | nil => rfl
  | cons i slots ih =>
    obtain ⟨hi, hs⟩ := List.forall_mem_cons.mp hall
    obtain ⟨reg, hr⟩ := Option.isSome_iff_exists.mp hi
    rw [List.filterMap_cons, hr, List.length_cons, List.length_cons, ih hs]

theorem isEmpty_index (h : Shows r c) (t : NetworkType) :
    (r.index t).isEmpty = (c.entries t).isEmpty := by
  have hl := length_registrations h.sound t
  rw [h.registrations] at hl
  rw [Bool.eq_iff_iff, List.isEmpty_iff_length_eq_zero, List.isEmpty_iff_length_eq_zero, hl]

theorem networkTypes_of_shows (h : Shows r c) : r.networkTypes = c.networkTypes := by
  unfold networkTypes Catalog.networkTypes
  apply List.filter_congr
  intro t _
  rw [entry_eq h.sound, isEmpty_index h]
  cases (c.entries t).isEmpty <;> rfl

theorem snapshot_of_shows (h : Shows r c) (t : NetworkType) : r.snapshot t = c.snapshot t := by
  rw [snapshot, Catalog.snapshot, entry_eq h.sound, isEmpty_index h]
  split
  · rfl
  · rw [← h.registrations]
    rfl

theorem snapshotAll_of_shows (h : Shows r c) : r.snapshotAll = c.snapshotAll := by
  rw [snapshotAll, funext (snapshot_of_shows h), Catalog.snapshotAll, Catalog.networkTypes,
    ← List.filterMap_eq_map, List.filterMap_filter]
  apply List.filterMap_congr
  intro t _
  cases hi : (c.entries t).isEmpty <;> simp [Catalog.snapshot, hi]

theorem listenerCount_eq (r : Registry κ) (t : NetworkType) :
    r.listenerCount t = (r.index t).length := by
  cases h : r.entries.get t <;> simp [listenerCount, index, h]

theorem listenerCount_of_shows (h : Shows r c) (t : NetworkType) :
    r.listenerCount t = (c.entries t).length := by
  rw [listenerCount_eq, ← length_registrations h.sound, h.registrations]

/-- A registry answers as an ordered map does, and shows what the map holds: in every result, in the
snapshots, which come in the order of kinds and of registration and are never empty, in the counts, which
are the lengths of the snapshots, and in the kinds that are there. For nothing is shown but what the entries
say, and an entry goes with its last registration. -/
theorem registry_shows_catalog (ops : List (Operation κ)) :
    let (results, r) := ({} : Registry κ).operateAll ops
    let (expected, c) := (Catalog.empty : Catalog κ).operateAll ops
    results = expected ∧ r.snapshotAll = c.snapshotAll ∧ (∀ t, r.snapshot t = c.snapshot t) ∧
      (∀ t, r.listenerCount t = (c.entries t).length) ∧ r.networkTypes = c.networkTypes ∧
      r.isEmpty = c.networkTypes.isEmpty ∧ (∀ t, r.entries.get t ≠ some []) ∧
      (∀ set ∈ r.snapshotAll, set.registrations ≠ []) ∧
      ∀ t, r.listenerCount t = ((r.snapshot t).map fun set => set.registrations.length).getD 0 := by
  dsimp only
  obtain ⟨hresults, h⟩ : Agree (({} : Registry κ).operateAll ops)
      ((Catalog.empty : Catalog κ).operateAll ops) := agree_operateAll shows_empty ops
  refine ⟨hresults, snapshotAll_of_shows h, snapshot_of_shows h, listenerCount_of_shows h,
    networkTypes_of_shows h, by rw [isEmpty, networkTypes_of_shows h], h.sound.filled, ?_, ?_⟩
  · intro set hset
    rw [snapshotAll_of_shows h] at hset
    obtain ⟨t, ht, rfl⟩ := List.mem_map.mp hset
    simpa [Catalog.networkTypes] using (List.mem_filter.mp ht).2
  · intro t
    rw [listenerCount_of_shows h, snapshot_of_shows h, Catalog.snapshot]
    split
    · rename_i he
      simp [List.isEmpty_iff.mp he]
    · rfl

end Registry

end ScoreRelay
