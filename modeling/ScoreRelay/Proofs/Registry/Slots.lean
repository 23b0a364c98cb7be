import Mathlib.Data.List.Basic
import ScoreRelay.Registry.Basic

/-! Where the registrations of a registry are. A slot is vacant and in the free list, or it is in the index
of the kind of its registration; so no slot is used twice however often slots were used again. -/
namespace ScoreRelay.Registry

variable {κ : Type} {r : Registry κ} {reg : Registration κ} {t : NetworkType} {id : String}
  {i slot : Nat}

/-- The registrations of a kind, in order. -/
def registrations (r : Registry κ) (t : NetworkType) : List (Registration κ) :=
  (r.index t).filterMap r.at?

/-- Vacant slots are free, and each other slot is in the index of its kind, once. No entry is left without
slots. -/
structure Sound (r : Registry κ) : Prop where
  mem_free : ∀ i, i ∈ r.free ↔ r.slots[i]? = some none
  mem_index : ∀ t i, i ∈ r.index t ↔ ∃ reg, r.at? i = some reg ∧ reg.networkType = t
  free : r.free.Nodup
  index : ∀ t, (r.index t).Nodup
  filled : ∀ t, r.entries.get t ≠ some []

theorem at?_eq_some : r.at? i = some reg ↔ r.slots[i]? = some (some reg) := by
  simp [at?, Option.join_eq_some_iff]

theorem index_of_entry {entry : List Nat} (h : r.entries.get t = some entry) : r.index t = entry := by
  simp [index, h]

theorem sound_empty : Sound ({} : Registry κ) where
  mem_free := by simp
  mem_index := by simp [at?]
  free := List.nodup_nil
  index := by simp
  filled := by simp

@[simp] theorem entries_insert : (r.insert reg).2.entries = r.entries := by
  unfold insert
  split <;> rfl

@[simp] theorem index_insert : (r.insert reg).2.index = r.index := by
  unfold index
  rw [entries_insert]

theorem slots_insert (h : r.Sound) (i : Nat) : (r.insert reg).2.slots[i]? =
    if i = (r.insert reg).1 then some (some reg) else r.slots[i]? := by
  unfold insert
  split
  · rename_i slot rest hf
    have hs : r.slots[slot]? = some none := (h.mem_free slot).mp (by simp [hf])
    obtain ⟨hlt, -⟩ := List.getElem?_eq_some_iff.mp hs
    by_cases hi : i = slot
    · subst hi
      simp [hlt]
    · simp [hi, List.getElem?_set_ne (Ne.symm hi)]
  · by_cases hi : i = r.slots.length
    · subst hi
      simp
    · simp only [if_neg hi]
      rw [List.getElem?_append]
      split
      · rfl
      · rename_i hlt
        have hgt : r.slots.length < i := by omega
        rw [List.getElem?_eq_none (by simp; omega), List.getElem?_eq_none (by omega)]

theorem at?_insert (h : r.Sound) (i : Nat) :
    (r.insert reg).2.at? i = if i = (r.insert reg).1 then some reg else r.at? i := by
  simp only [at?, slots_insert h]
  split <;> rfl

/-- The slot that is taken held nothing before. -/
theorem at?_taken (h : r.Sound) : r.at? (r.insert reg).1 = none := by
  unfold insert
  split
  · rename_i slot rest hf
    have hs : r.slots[slot]? = some none := (h.mem_free slot).mp (by simp [hf])
    simp [at?, hs]
  · simp [at?]

theorem taken_not_mem_index (h : r.Sound) : (r.insert reg).1 ∉ r.index t := by
  intro hi
  obtain ⟨reg', hr, -⟩ := (h.mem_index t _).mp hi
  rw [at?_taken h] at hr
  contradiction

theorem mem_free_insert (h : r.Sound) (i : Nat) :
    i ∈ (r.insert reg).2.free ↔ (r.insert reg).2.slots[i]? = some none := by
  have hf := h.mem_free i
  have hn := h.free
  rw [slots_insert h]
  unfold insert
  split
  · rename_i slot rest hs
    rw [hs] at hf hn
    have hslot : slot ∉ rest := (List.nodup_cons.mp hn).1
    by_cases hi : i = slot
    · subst hi
      simp [hslot]
    · simpa [hi] using hf
  · rename_i hs
    rw [hs] at hf ⊢
    by_cases hi : i = r.slots.length
    · simp [hi]
    · simpa [hi] using hf

theorem nodup_free_insert (h : r.Sound) : (r.insert reg).2.free.Nodup := by
  have hn := h.free
  unfold insert
  split
  · rename_i slot rest hs
    rw [hs] at hn
    exact (List.nodup_cons.mp hn).2
  · exact hn

theorem any_holds (r : Registry κ) (id : String) (slots : List Nat) :
    slots.any (r.holds id) = true ↔ ∃ reg ∈ slots.filterMap r.at?, reg.id = id := by
  simp only [List.any_eq_true, holds, List.mem_filterMap]
  constructor
  · rintro ⟨i, hi, hh⟩
    split at hh
    · rename_i reg hr
      exact ⟨reg, ⟨i, hi, hr⟩, by simpa using hh⟩
    · contradiction
  · rintro ⟨reg, ⟨i, hi, hr⟩, rfl⟩
    exact ⟨i, hi, by simp [hr]⟩

/-- A registration put into a slot, behind the others of its kind. -/
def enter (r : Registry κ) (reg : Registration κ) : Registry κ :=
  { (r.insert reg).2 with
    entries := r.entries.set reg.networkType
      (some (r.index reg.networkType ++ [(r.insert reg).1])) }

/-- A slot given up by the registrations of a kind, whose entry goes if it has no other. -/
def vacate (r : Registry κ) (t : NetworkType) (slot : Nat) : Registry κ :=
  let rest := (r.index t).erase slot
  { r.release slot with entries := r.entries.set t (if rest.isEmpty then none else some rest) }

theorem index_enter (r : Registry κ) (reg : Registration κ) (t : NetworkType) :
    (r.enter reg).index t =
      if t = reg.networkType then r.index t ++ [(r.insert reg).1] else r.index t := by
  by_cases ht : t = reg.networkType
  · subst ht
    simp [enter, index]
  · simp [enter, index, ByType.get_set_other _ _ ht, ht]

theorem index_vacate (r : Registry κ) (t : NetworkType) (slot : Nat) (u : NetworkType) :
    (r.vacate t slot).index u = if u = t then (r.index u).erase slot else r.index u := by
  by_cases hu : u = t
  · subst hu
    rw [if_pos rfl]
    simp only [vacate, index.eq_1 (Registry.mk _ _ _), ByType.get_set_same]
    split
    · rename_i he
      rw [List.isEmpty_iff.mp he]
      rfl
    · rfl
  · simp [vacate, index, ByType.get_set_other _ _ hu, hu]

theorem filled_enter (h : r.Sound) (t : NetworkType) : (r.enter reg).entries.get t ≠ some [] := by
  by_cases ht : t = reg.networkType
  · subst ht
    simp [enter]
  · simpa [enter, ByType.get_set_other _ _ ht] using h.filled t

/-- An entry that has lost its last slot is no more. -/
theorem filled_vacate (h : r.Sound) (t u : NetworkType) :
    (r.vacate t slot).entries.get u ≠ some [] := by
  by_cases hu : u = t
  · subst hu
    simp only [vacate, ByType.get_set_same]
    split
    · simp
    · rename_i he
      simpa using he
  · simpa [vacate, ByType.get_set_other _ _ hu] using h.filled u

theorem knows_eq (r : Registry κ) (t : NetworkType) (id : String) :
    r.knows t id = (r.index t).any (r.holds id) := by
  cases h : r.entries.get t <;> simp [knows, index, h]

theorem unregister_eq (r : Registry κ) (t : NetworkType) (id : String) : r.unregister t id =
    match (r.index t).find? (r.holds id) with
    | none => (.notFound, r)
    | some slot => (.unregistered, r.vacate t slot) := by
  unfold unregister
  cases he : r.entries.get t with
  | none => simp [index, he]
  | some entry =>
    rw [index_of_entry he]
    cases hf : entry.find? (r.holds id) with
    | none => simp only [hf]
    | some slot =>
      simp only [hf, vacate, index_of_entry he, ByType.set_set]
      split <;> rfl

/-- All that registering can come to: nothing if the identifier is known for the kind, and else a new
registration. -/
theorem register_cases (r : Registry κ) (reg : Registration κ) :
    ((∃ reg' ∈ r.registrations reg.networkType, reg'.id = reg.id) ∧
        r.register reg = (.alreadyRegistered, r)) ∨
      ((∀ reg' ∈ r.registrations reg.networkType, reg'.id ≠ reg.id) ∧
        r.register reg = (.registered, r.enter reg)) := by
  have ha := any_holds r reg.id (r.index reg.networkType)
  by_cases hk : ∃ reg' ∈ r.registrations reg.networkType, reg'.id = reg.id
  · refine Or.inl ⟨hk, ?_⟩
    simp only [register, knows_eq, ha.mpr hk, if_true]
  · have hn : ¬ (r.index reg.networkType).any (r.holds reg.id) = true := fun h => hk (ha.mp h)
    refine Or.inr ⟨by simpa using hk, ?_⟩
    simp only [register, knows_eq, if_neg hn, index_insert, entries_insert, enter]

/-- All that unregistering can come to: nothing if the identifier is unknown for the kind, and else a slot
that holds it is given up. -/
theorem unregister_cases (r : Registry κ) (t : NetworkType) (id : String) :
    ((∀ reg ∈ r.registrations t, reg.id ≠ id) ∧ r.unregister t id = (.notFound, r)) ∨
      ∃ front slot back reg, r.index t = front ++ slot :: back ∧ r.at? slot = some reg ∧
        reg.id = id ∧ r.unregister t id = (.unregistered, r.vacate t slot) := by
  rw [unregister_eq]
  cases hf : (r.index t).find? (r.holds id) with
  | none =>
    refine Or.inl ⟨?_, rfl⟩
    intro reg hr hid
    obtain ⟨i, hi, hh⟩ := List.any_eq_true.mp ((any_holds r id (r.index t)).mpr ⟨reg, hr, hid⟩)
    exact List.find?_eq_none.mp hf i hi hh
  | some slot =>
    obtain ⟨hh, front, back, hs, -⟩ := List.find?_eq_some_iff_append.mp hf
    obtain ⟨reg, hr, hid⟩ := (any_holds r id [slot]).mp (by simpa using hh)
    have hat : r.at? slot = some reg := by simpa using hr
    exact Or.inr ⟨front, slot, back, reg, hs, hat, hid, rfl⟩

theorem sound_enter (h : r.Sound) : (r.enter reg).Sound := by
  refine ⟨mem_free_insert h, ?_, nodup_free_insert h, ?_, filled_enter h⟩
  · intro t i
    change _ ↔ ∃ reg', (r.insert reg).2.at? i = some reg' ∧ _
    rw [at?_insert h, index_enter]
    by_cases ht : t = reg.networkType
    · subst ht
      rw [if_pos rfl, List.mem_append, List.mem_singleton, h.mem_index]
      by_cases hi : i = (r.insert reg).1
      · simp [hi]
      · simp [hi]
    · rw [if_neg ht, h.mem_index]
      by_cases hi : i = (r.insert reg).1
      · simp [hi, at?_taken h, Ne.symm ht]
      · simp [hi]
  · intro t
    rw [index_enter]
    split
    · exact List.nodup_append.mpr ⟨h.index _, by simp, fun a ha b hb he =>
        taken_not_mem_index h (List.mem_singleton.mp hb ▸ he ▸ ha)⟩
    · exact h.index t

/-- A new registration comes behind the others of its kind, and no other kind changes. -/
theorem registrations_enter (h : r.Sound) (t : NetworkType) : (r.enter reg).registrations t =
    if t = reg.networkType then r.registrations t ++ [reg] else r.registrations t := by
  have hat : ∀ i ∈ r.index t, (r.insert reg).2.at? i = r.at? i := by
    intro i hi
    rw [at?_insert h, if_neg]
    rintro rfl
    exact taken_not_mem_index h hi
  change ((r.enter reg).index t).filterMap (r.insert reg).2.at? = _
  rw [index_enter]
  split
  · rw [List.filterMap_append, List.filterMap_congr hat]
    simp [at?_insert h, registrations]
  · rw [List.filterMap_congr hat]
    rfl

theorem slots_vacate (hs : r.at? slot = some reg) (i : Nat) :
    (r.vacate t slot).slots[i]? = if i = slot then some none else r.slots[i]? := by
  obtain ⟨hlt, -⟩ := List.getElem?_eq_some_iff.mp (at?_eq_some.mp hs)
  by_cases hi : i = slot
  · subst hi
    simp [vacate, release, hlt]
  · simp [vacate, release, hi, List.getElem?_set_ne (Ne.symm hi)]

theorem at?_vacate (hs : r.at? slot = some reg) (i : Nat) :
    (r.vacate t slot).at? i = if i = slot then none else r.at? i := by
  simp only [at?, slots_vacate hs]
  split <;> rfl

theorem sound_vacate (h : r.Sound) (hs : r.at? slot = some reg) (ht : reg.networkType = t) :
    (r.vacate t slot).Sound := by
  have hfree : slot ∉ r.free := by
    intro hm
    rw [h.mem_free, at?_eq_some.mp hs] at hm
    simp at hm
  refine ⟨?_, ?_, List.nodup_cons.mpr ⟨hfree, h.free⟩, ?_, filled_vacate h t⟩
  · intro i
    rw [slots_vacate hs]
    by_cases hi : i = slot
    · simp [vacate, release, hi]
    · simp [vacate, release, hi, h.mem_free]
  · intro u i
    rw [at?_vacate hs, index_vacate]
    by_cases hu : u = t
    · subst hu
      rw [if_pos rfl, (h.index u).mem_erase_iff, h.mem_index]
      by_cases hi : i = slot <;> simp [hi]
    · rw [if_neg hu, h.mem_index]
      by_cases hi : i = slot
      · subst hi
        simp [hs, ht, Ne.symm hu]
      · simp [hi]
  · intro u
    rw [index_vacate]
    split
    · exact (h.index u).erase slot
    · exact h.index u

/-- The registration in the slot goes, the others of its kind keep their order, and no other kind
changes. -/
theorem registrations_vacate (h : r.Sound) (hs : r.at? slot = some reg)
    {front back : List Nat} (hi : r.index reg.networkType = front ++ slot :: back)
    (t : NetworkType) : (r.vacate reg.networkType slot).registrations t =
      if t = reg.networkType then front.filterMap r.at? ++ back.filterMap r.at?
      else r.registrations t := by
  have hat {slots : List Nat} (hn : slot ∉ slots) :
      slots.filterMap (r.vacate reg.networkType slot).at? = slots.filterMap r.at? := by
    apply List.filterMap_congr
    intro i hm
    rw [at?_vacate hs, if_neg]
    rintro rfl
    exact hn hm
  by_cases ht : t = reg.networkType
  · subst ht
    have hn := h.index reg.networkType
    rw [hi] at hn
    obtain ⟨hfront, hback⟩ : slot ∉ front ∧ slot ∉ back := by
      have hm := List.perm_middle.nodup_iff.mp hn
      simpa using (List.nodup_cons.mp hm).1
    have he : (r.vacate reg.networkType slot).index reg.networkType = front ++ back := by
      rw [index_vacate, if_pos rfl, hi, List.erase_append_right _ hfront, List.erase_cons_head]
    rw [registrations, he, List.filterMap_append, hat hfront, hat hback, if_pos rfl]
  · have hn : slot ∉ r.index t := by
      intro hm
      obtain ⟨reg', hr, ht'⟩ := (h.mem_index t slot).mp hm
      rw [hs] at hr
      exact ht (by rw [← ht', Option.some.inj hr])
    have he : (r.vacate reg.networkType slot).index t = r.index t := by
      rw [index_vacate, if_neg ht]
    rw [registrations, he, hat hn, if_neg ht]
    rfl

/-- As no entry is without slots, the slots of a kind tell whether it has an entry. -/
theorem entry_eq (h : r.Sound) (t : NetworkType) :
    r.entries.get t = if (r.index t).isEmpty then none else some (r.index t) := by
  have hf := h.filled t
  cases he : r.entries.get t with
  | none => simp [index, he]
  | some entry =>
    have hne : entry ≠ [] := fun hn => hf (by rw [he, hn])
    rw [index_of_entry he, if_neg (by simpa using hne)]

theorem sound_register (h : r.Sound) : (r.register reg).2.Sound := by
  rcases register_cases r reg with ⟨-, hr⟩ | ⟨-, hr⟩ <;> rw [hr]
  · exact h
  · exact sound_enter h

/-- A slot in the index of a kind holds a registration of that kind. -/
theorem networkType_of_mem_index (h : r.Sound) (hi : slot ∈ r.index t)
    (hs : r.at? slot = some reg) : reg.networkType = t := by
  obtain ⟨reg', hr, ht⟩ := (h.mem_index t slot).mp hi
  rw [← ht, Option.some.inj (hr.symm.trans hs)]

theorem sound_unregister (h : r.Sound) : (r.unregister t id).2.Sound := by
  rcases unregister_cases r t id with ⟨-, hr⟩ | ⟨front, slot, back, reg, hi, hs, -, hr⟩ <;> rw [hr]
  · exact h
  · exact sound_vacate h hs (networkType_of_mem_index h (by simp [hi]) hs)

end ScoreRelay.Registry
