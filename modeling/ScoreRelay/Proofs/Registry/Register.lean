import Mathlib.Data.List.Basic
import ScoreRelay.Registry.Basic

/-! Registering in a registry from which nothing was ever removed. -/
namespace ScoreRelay.Registry

variable {κ : Type} {r : Registry κ} {reg : Registration κ} {t : NetworkType}

/-- No slot is vacant, and every slot in use is there. -/
structure Packed (r : Registry κ) : Prop where
  free : r.free = []
  bound : ∀ t, ∀ i ∈ r.index t, i < r.slots.length

theorem packed_empty : Packed ({} : Registry κ) where
  free := rfl
  bound := by simp

@[simp] theorem snapshot_empty : ({} : Registry κ).snapshot t = none := by
  simp [snapshot]

theorem entries_of_snapshot (h : r.snapshot t = none) : r.entries.get t = none := by
  simpa [snapshot] using h

theorem register_eq (h : r.Packed) (hn : r.snapshot reg.networkType = none) :
    r.register reg = (.registered, { r with
      slots := r.slots ++ [some reg]
      entries := r.entries.set reg.networkType (some [r.slots.length]) }) := by
  simp [register, knows, insert, index, entries_of_snapshot hn, h.free]

theorem packed_register (h : r.Packed) (hn : r.snapshot reg.networkType = none) :
    (r.register reg).2.Packed := by
  rw [register_eq h hn]
  refine ⟨h.free, ?_⟩
  intro t i hi
  rw [List.length_append, List.length_singleton]
  by_cases ht : t = reg.networkType
  · subst ht
    have hi : i = r.slots.length := by simpa [index] using hi
    omega
  · have hi : i ∈ r.index t := by simpa [index, ByType.get_set_other _ _ ht] using hi
    exact Nat.lt_add_right _ (h.bound t i hi)

/-- The first registration of a kind is the only one of that kind, and changes no other kind. -/
theorem snapshot_register (h : r.Packed) (hn : r.snapshot reg.networkType = none) :
    (r.register reg).2.snapshot t =
      if t = reg.networkType then some ⟨t, [reg]⟩ else r.snapshot t := by
  rw [register_eq h hn]
  by_cases ht : t = reg.networkType
  · subst ht
    simp [snapshot, setOf, at?]
  · simp only [snapshot, ByType.get_set_other _ _ ht, if_neg ht]
    cases he : r.entries.get t with
    | none => rfl
    | some entry =>
      -- an older slot is read as before
      have hat : ∀ i ∈ entry, ((r.slots ++ [some reg])[i]?).join = r.at? i := by
        intro i hi
        have hlt := h.bound t i (by simpa [index, he] using hi)
        rw [List.getElem?_append_left hlt]
        rfl
      simp only [Option.map_some, setOf]
      rw [← List.filterMap_congr hat]
      rfl

end ScoreRelay.Registry
