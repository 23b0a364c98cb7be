import Mathlib.Data.List.Induction
import Mathlib.Data.List.Nodup
import Mathlib.Order.Bounds.Basic
import ScoreRelay.Proofs.Registry.Bounds

/-! What becomes of the slots of a registry. Each of them is vacant and in the free list once, or holds a
registration that the index of its kind names once; and there is a new slot only when no other is vacant, so
there are as many as were ever needed at a time. -/
namespace ScoreRelay

variable {κ : Type} {reg : Registration κ} {t : NetworkType}

namespace Catalog

/-- How many registrations there are, of all kinds together. -/
def size (c : Catalog κ) : Nat := (NetworkType.all.flatMap c.entries).length

theorem operateAll_snoc (c : Catalog κ) (ops : List (Registry.Operation κ))
    (op : Registry.Operation κ) :
    (c.operateAll (ops ++ [op])).2 = ((c.operateAll ops).2.operate op).2 := by
  induction ops generalizing c with
  | nil => rfl
  | cons first ops ih => exact ih (c.operate first).2

/-- How many registrations there were at each time of some operations, their end included. -/
def sizes (ops : List (Registry.Operation κ)) : Set Nat :=
  {n | ∃ past, past <+: ops ∧ n = ((empty : Catalog κ).operateAll past).2.size}

theorem sizes_nil : sizes ([] : List (Registry.Operation κ)) = {0} := by
  ext n
  simp only [sizes, List.prefix_nil, Set.mem_ofPred_eq, exists_eq_left, Set.mem_singleton_iff]
  rfl

theorem sizes_snoc (ops : List (Registry.Operation κ)) (op : Registry.Operation κ) :
    sizes (ops ++ [op]) =
      insert ((empty : Catalog κ).operateAll (ops ++ [op])).2.size (sizes ops) := by
  ext n
  simp only [sizes, List.prefix_concat_iff, or_and_right, exists_or, exists_eq_left,
    Set.mem_ofPred_eq, Set.mem_insert_iff]

end Catalog

namespace Registry

variable {r : Registry κ} {c : Catalog κ} {i : Nat}

theorem operateAll_snoc (r : Registry κ) (ops : List (Operation κ)) (op : Operation κ) :
    (r.operateAll (ops ++ [op])).2 = ((r.operateAll ops).2.operate op).2 := by
  induction ops generalizing r with
  | nil => rfl
  | cons first ops ih => exact ih (r.operate first).2

/-- The slots that the index names, kind by kind. -/
def named (r : Registry κ) : List Nat := NetworkType.all.flatMap r.index

theorem mem_named (h : r.Sound) : i ∈ r.named ↔ ∃ reg, r.at? i = some reg := by
  simp only [named, List.mem_flatMap, h.mem_index]
  constructor
  · rintro ⟨t, -, reg, hr, -⟩
    exact ⟨reg, hr⟩
  · rintro ⟨reg, hr⟩
    exact ⟨reg.networkType, NetworkType.mem_all _, reg, hr, rfl⟩

/-- A slot that a kind names holds a registration of that kind, so no two kinds name the same one. -/
theorem nodup_named (h : r.Sound) : r.named.Nodup := by
  have hkinds : NetworkType.all.Nodup := by decide
  refine List.nodup_flatMap.mpr ⟨fun t _ => h.index t, hkinds.imp ?_⟩
  intro t u hne i ht hu
  obtain ⟨reg, hr, rfl⟩ := (h.mem_index t i).mp ht
  exact hne (networkType_of_mem_index h hu hr)

/-- Every slot is free or named, and neither of them twice. -/
theorem free_append_named (h : r.Sound) :
    (r.free ++ r.named).Perm (List.range r.slots.length) := by
  have hapart : ∀ i ∈ r.free, ∀ j ∈ r.named, i ≠ j := by
    rintro i hf j hn rfl
    obtain ⟨reg, hr⟩ := (mem_named h).mp hn
    simp [at?, (h.mem_free i).mp hf] at hr
  have hn : (r.free ++ r.named).Nodup :=
    List.nodup_append.mpr ⟨h.free, nodup_named h, hapart⟩
  refine (List.perm_ext_iff_of_nodup hn List.nodup_range).mpr fun i => ?_
  rw [List.mem_append, List.mem_range, h.mem_free, mem_named h]
  simp only [at?_eq_some]
  constructor
  · rintro (hs | ⟨reg, hs⟩) <;> exact (List.getElem?_eq_some_iff.mp hs).1
  · intro hi
    cases hs : r.slots.get ⟨i, hi⟩ with
    | none => exact Or.inl (List.getElem?_eq_some_iff.mpr ⟨hi, hs⟩)
    | some reg => exact Or.inr ⟨reg, List.getElem?_eq_some_iff.mpr ⟨hi, hs⟩⟩

theorem length_slots (h : r.Sound) : r.slots.length = r.free.length + r.named.length := by
  rw [← List.length_append, (free_append_named h).length_eq, List.length_range]

theorem length_named (h : Shows r c) : r.named.length = c.size := by
  simp only [named, List.length_flatMap, Catalog.size, ← listenerCount_of_shows h, listenerCount_eq]

/-- There are no more slots than before unless all of them are taken afterwards. -/
theorem length_slots_enter (r : Registry κ) (reg : Registration κ) :
    (r.enter reg).slots.length = r.slots.length ∨
      (r.slots.length ≤ (r.enter reg).slots.length ∧ (r.enter reg).free = []) := by
  simp only [enter, insert]
  cases hf : r.free with
  | nil => exact Or.inr ⟨by simp, rfl⟩
  | cons slot free => exact Or.inl (by simp)

theorem length_slots_step (r : Registry κ) (op : Operation κ) :
    (r.operate op).2.slots.length = r.slots.length ∨
      (r.slots.length ≤ (r.operate op).2.slots.length ∧ (r.operate op).2.free = []) := by
  cases op with
  | register reg =>
    rcases register_cases r reg with ⟨-, hr⟩ | ⟨-, hr⟩ <;> rw [operate, hr]
    · exact Or.inl rfl
    · exact length_slots_enter r reg
  | unregister t id =>
    rcases unregister_cases r t id with ⟨-, hr⟩ | ⟨_, slot, _, _, -, -, -, hr⟩ <;> rw [operate, hr]
    · exact Or.inl rfl
    · exact Or.inl (by simp [vacate, release])

/-- The slots are as many as before, or as many as there are registrations now if these are more. -/
theorem length_slots_operate (h : Shows r c) (op : Operation κ) :
    (r.operate op).2.slots.length = max (c.operate op).2.size r.slots.length := by
  have hs := (agree_operate h op).2
  have hl := length_slots hs.sound
  rw [length_named hs] at hl
  rcases length_slots_step r op with he | ⟨hle, hf⟩
  · omega
  · rw [hf, List.length_nil] at hl
    omega

theorem length_slots_operateAll (ops : List (Operation κ)) :
    IsGreatest (Catalog.sizes ops) (({} : Registry κ).operateAll ops).2.slots.length := by
  induction ops using List.reverseRecOn with
  | nil =>
    rw [Catalog.sizes_nil]
    exact isGreatest_singleton
  | append_singleton ops op ih =>
    have h : Shows (({} : Registry κ).operateAll ops).2 _ := (agree_operateAll shows_empty ops).2
    rw [Catalog.sizes_snoc, operateAll_snoc, length_slots_operate h, ← Catalog.operateAll_snoc]
    exact ih.insert _

/-- A slot that holds a registration has one place in the index, among those of its kind. -/
theorem place_of_taken (h : r.Sound) (hs : r.at? i = some reg) :
    ∃ place, ∀ t (p : Nat), (r.index t)[p]? = some i ↔ t = reg.networkType ∧ p = place := by
  have hm : i ∈ r.index reg.networkType := (h.mem_index _ i).mpr ⟨reg, hs, rfl⟩
  obtain ⟨place, hp⟩ := List.getElem?_of_mem hm
  refine ⟨place, fun t p => ⟨fun hi => ?_, ?_⟩⟩
  · obtain rfl : reg.networkType = t := networkType_of_mem_index h (List.mem_of_getElem? hi) hs
    obtain ⟨hlt, -⟩ := List.getElem?_eq_some_iff.mp hi
    exact ⟨rfl, (List.getElem?_inj hlt (h.index _)).mp (hi.trans hp.symm)⟩
  · rintro ⟨rfl, rfl⟩
    exact hp

/-- However a registry has come about by registering and unregistering, its free list has each vacant slot
once and nothing else; a slot that is taken has one place in the index, with the kind of its registration; the
index names only slots that are there and taken, so that every operation and every look at a kind finds the
slots that it uses; and there are as many slots as there ever were registrations at a time. -/
theorem slots_accounted_for (ops : List (Operation κ)) :
    let r := (({} : Registry κ).operateAll ops).2
    (r.free.Nodup ∧ ∀ i, i ∈ r.free ↔ r.slots[i]? = some none) ∧
      (∀ (i : Nat) reg, r.slots[i]? = some (some reg) → ∃ place, ∀ t (p : Nat),
        (r.index t)[p]? = some i ↔ t = reg.networkType ∧ p = place) ∧
      (∀ t, ∀ i ∈ r.index t, ∃ reg, r.slots[i]? = some (some reg)) ∧
      (∀ op, r.operate? op = some (r.operate op)) ∧
      (∀ t, r.registrations? t = some (r.registrations t)) ∧
      IsGreatest (Catalog.sizes ops) r.slots.length := by
  intro r
  have h : r.Sound := (agree_operateAll shows_empty ops).2.sound
  refine ⟨⟨h.free, h.mem_free⟩, fun i reg hs => place_of_taken h (at?_eq_some.mpr hs), ?_,
    operate?_eq h, registrations?_eq h, length_slots_operateAll ops⟩
  intro t i hi
  obtain ⟨reg, hr⟩ := exists_of_mem_index h hi
  exact ⟨reg, at?_eq_some.mp hr⟩

-- the slot that a goes from is where c goes, though c is of another kind
example :
    let r := (({} : Registry Unit).operateAll [.register ⟨.wifi, "a", .none, ()⟩,
      .register ⟨.wifi, "b", .none, ()⟩, .unregister .wifi "a", .register ⟨.ethernet, "c", .none, ()⟩]).2
    r.slots.length = 2 ∧ r.free = [] ∧ r.entries = ⟨some [1], none, some [0]⟩ := by
  decide

end Registry

end ScoreRelay
