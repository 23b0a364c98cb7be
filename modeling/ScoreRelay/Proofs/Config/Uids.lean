import Mathlib.Algebra.Group.Nat.Defs
import Mathlib.Data.List.Nodup
import Mathlib.Data.List.Perm.Subperm
import ScoreRelay.Proofs.Config.Resolve

/-! No two providers of a configuration in force have the same uid: the uids asked for are told apart before
any other is given, and what is given is free. -/
namespace ScoreRelay.ConfigInput

variable {input : ConfigInput} {c : Config} {taken taken' claims : List UInt32} {ks : List Kept}
  {start : Nat} {uid given : UInt32}

/-- The uids that are asked for. -/
def asked (ks : List Kept) : List UInt32 := ks.filterMap fun k => k.input.uid

/-- How many leave it to the configuration which uid they get. -/
def unasked (ks : List Kept) : Nat := ks.countP fun k => k.input.uid.isNone

section

variable {k : Kept}

theorem asked_of_some (h : k.input.uid = some uid) : asked (k :: ks) = uid :: asked ks := by
  simp [asked, h]

theorem asked_of_none (h : k.input.uid = none) : asked (k :: ks) = asked ks := by simp [asked, h]

theorem unasked_of_some (h : k.input.uid = some uid) : unasked (k :: ks) = unasked ks := by
  simp [unasked, h]

theorem unasked_of_none (h : k.input.uid = none) : unasked (k :: ks) = unasked ks + 1 := by
  simp [unasked, h]

end

theorem asked_add_unasked (ks : List Kept) : (asked ks).length + unasked ks = ks.length := by
  induction ks with
  | nil => rfl
  | cons k ks ih =>
    cases hu : k.input.uid with
    | none =>
      rw [asked_of_none hu, unasked_of_none hu, List.length_cons]
      omega
    | some uid =>
      rw [asked_of_some hu, unasked_of_some hu, List.length_cons, List.length_cons]
      omega

/-- Counting up by one past the uids that are taken, until one is free. No step goes past the largest
uid, and the last one is where it ends. -/
inductive Climbs (taken : List UInt32) : UInt32 → UInt32 → Prop where
  | rest {u : UInt32} (free : u ∉ taken) : Climbs taken u u
  | step {u v : UInt32} (busy : u ∈ taken) (room : u.toNat + 1 < UInt32.size)
      (next : Climbs taken (u + 1) v) : Climbs taken u v

namespace Climbs

theorem congr (he : ∀ v, v ∈ taken ↔ v ∈ taken') (h : Climbs taken uid given) :
    Climbs taken' uid given := by
  induction h with
  | rest free => exact .rest fun hm => free ((he _).mpr hm)
  | step busy room _ ih => exact .step ((he _).mp busy) room ih

/-- The end of the way is the least free uid from its beginning on. -/
theorem least (h : Climbs taken uid given) : uid.toNat ≤ given.toNat ∧ given ∉ taken ∧
    ∀ v : UInt32, uid.toNat ≤ v.toNat → v ∉ taken → given.toNat ≤ v.toNat := by
  induction h with
  | rest free => exact ⟨Nat.le_refl _, free, fun v hv _ => hv⟩
  | @step u _ busy room _ ih =>
    obtain ⟨hle, hfree, hleast⟩ := ih
    have hnext : (u + 1).toNat = u.toNat + 1 := by
      rw [UInt32.toNat_add]
      exact Nat.mod_eq_of_lt room
    rw [hnext] at hle hleast
    refine ⟨by omega, hfree, ?_⟩
    intro v hv hm
    apply hleast v ?_ hm
    have hne : u.toNat ≠ v.toNat := fun he => hm (UInt32.toNat_inj.mp he ▸ busy)
    omega

end Climbs

/-- More numbers are tried than are taken. -/
theorem exists_free (h : start + taken.length < UInt32.size) :
    ∃ d ≤ taken.length, UInt32.ofNat (start + d) ∉ taken := by
  by_contra hn
  have hsub : (List.range' start (taken.length + 1)).map UInt32.ofNat ⊆ taken := by
    intro uid hu
    obtain ⟨n, hm, rfl⟩ := List.mem_map.mp hu
    rw [List.mem_range'_1] at hm
    obtain ⟨d, rfl⟩ := Nat.exists_eq_add_of_le hm.1
    by_contra hf
    exact hn ⟨d, by omega, hf⟩
  have hnd : ((List.range' start (taken.length + 1)).map UInt32.ofNat).Nodup := by
    refine List.Nodup.map_on ?_ List.nodup_range'
    intro n hm m hm' he
    rw [List.mem_range'_1] at hm hm'
    have hv := congrArg UInt32.toNat he
    rwa [UInt32.toNat_ofNat_of_lt' (by omega), UInt32.toNat_ofNat_of_lt' (by omega)] at hv
  have hlen := hnd.length_le_of_subset hsub
  rw [List.length_map, List.length_range'] at hlen
  omega

/-- Counting up climbs to a uid that is free, if one is within reach. -/
theorem climbs_of_reach {steps : Nat} (hsize : start + steps < UInt32.size)
    (h : ∃ d ≤ steps, UInt32.ofNat (start + d) ∉ taken) :
    Climbs taken (UInt32.ofNat start) (countUp taken steps (UInt32.ofNat start)) := by
  induction steps generalizing start with
  | zero =>
    obtain ⟨d, hd, hfree⟩ := h
    obtain rfl : d = 0 := by omega
    exact .rest hfree
  | succ steps ih =>
    obtain ⟨d, hd, hfree⟩ := h
    rw [countUp]
    split
    · rename_i hbusy
      have hbusy : UInt32.ofNat start ∈ taken := by simpa using hbusy
      obtain ⟨d, rfl⟩ : ∃ d', d = d' + 1 :=
        Nat.exists_eq_succ_of_ne_zero (by rintro rfl; exact hfree hbusy)
      have hreach : ∃ d ≤ steps, UInt32.ofNat (start + 1 + d) ∉ taken :=
        ⟨d, by omega, by rwa [show start + 1 + d = start + (d + 1) by omega]⟩
      have hnext := ih (by omega) hreach
      rw [UInt32.ofNat_add] at hnext
      refine .step hbusy ?_ hnext
      rw [UInt32.toNat_ofNat_of_lt' (by omega)]
      omega
    · rename_i hrest
      exact .rest (by simpa using hrest)

theorem climbs_countUp (h : start + taken.length < UInt32.size) :
    Climbs taken (UInt32.ofNat start) (countUp taken taken.length (UInt32.ofNat start)) :=
  climbs_of_reach h (exists_free h)

theorem claimed_eq_ok (hn : taken.Nodup) (h : claimed taken ks = .ok claims) :
    claims = (asked ks).reverse ++ taken ∧ claims.Nodup := by
  induction ks generalizing taken with
  | nil =>
    obtain rfl : taken = claims := Except.ok.inj h
    exact ⟨rfl, hn⟩
  | cons k ks ih =>
    unfold claimed at h
    split at h
    · rename_i hu
      simpa [asked, hu] using ih hn h
    · rename_i uid hu
      split at h
      · cases h
      · rename_i hc
        have hnew : uid ∉ taken := by simpa using hc
        simpa [asked, hu] using ih (List.nodup_cons.mpr ⟨hnew, hn⟩) h

theorem index_keep (seen : List String) (i : Nat) (ps : List ProviderInput) :
    (∀ k ∈ keep seen i ps, k.index < i + ps.length) ∧ (keep seen i ps).length ≤ ps.length := by
  induction ps generalizing seen i with
  | nil => simp [keep]
  | cons p ps ih =>
    unfold keep
    dsimp only
    split
    · obtain ⟨hi, hl⟩ := ih seen (i + 1)
      refine ⟨fun k hk => ?_, by rw [List.length_cons]; omega⟩
      have := hi k hk
      rw [List.length_cons]
      omega
    · obtain ⟨hi, hl⟩ := ih (Text.trim p.package :: seen) (i + 1)
      refine ⟨fun k hk => ?_, by simp only [List.length_cons]; omega⟩
      rw [List.length_cons]
      rcases List.mem_cons.mp hk with rfl | hk
      · dsimp only
        omega
      · have := hi k hk
        omega

/-- The room is for the uids taken and those yet to be given. Whatever is given was asked for, or was not
taken before. -/
theorem uids_allot (room : Nat) (hsub : asked ks ⊆ taken) (hn : (asked ks).Nodup)
    (hroom : taken.length + unasked ks ≤ room)
    (hfit : ∀ k ∈ ks, firstUid + k.index + room ≤ UInt32.size) :
    ((allot taken ks).map Provider.uid).Nodup ∧
      ∀ uid ∈ (allot taken ks).map Provider.uid, uid ∈ asked ks ∨ uid ∉ taken := by
  induction ks generalizing taken with
  | nil => simp [allot]
  | cons k ks ih =>
    obtain ⟨hk, hfit⟩ := List.forall_mem_cons.mp hfit
    cases hu : k.input.uid with
    | some uid =>
      rw [asked_of_some hu] at hsub hn ⊢
      rw [unasked_of_some hu] at hroom
      obtain ⟨hmem, hsub⟩ := List.cons_subset.mp hsub
      obtain ⟨hnew, hn⟩ := List.nodup_cons.mp hn
      obtain ⟨hnd, hold⟩ := ih hsub hn hroom hfit
      simp only [allot, hu, List.map_cons]
      refine ⟨List.nodup_cons.mpr ⟨fun hm => ?_, hnd⟩, ?_⟩
      · rcases hold uid hm with ha | hf
        · exact hnew ha
        · exact hf hmem
      · intro v hv
        rcases List.mem_cons.mp hv with rfl | hv
        · exact Or.inl List.mem_cons_self
        · exact (hold v hv).imp_left (List.mem_cons_of_mem _)
    | none =>
      rw [asked_of_none hu] at hsub hn ⊢
      rw [unasked_of_none hu] at hroom
      have hclimb : Climbs taken (UInt32.ofNat (firstUid + k.index)) _ := climbs_countUp (by omega)
      obtain ⟨-, hfree, -⟩ := hclimb.least
      simp only [allot, hu, List.map_cons]
      generalize countUp taken taken.length (UInt32.ofNat (firstUid + k.index)) = given at hfree ⊢
      obtain ⟨hnd, hold⟩ := ih (List.subset_cons_of_subset given hsub) hn
        (by rw [List.length_cons]; omega) hfit
      refine ⟨List.nodup_cons.mpr ⟨fun hm => ?_, hnd⟩, ?_⟩
      · rcases hold given hm with ha | hf
        · exact hfree (hsub ha)
        · exact hf List.mem_cons_self
      · intro v hv
        rcases List.mem_cons.mp hv with rfl | hv
        · exact Or.inr hfree
        · exact (hold v hv).imp_right fun hf hm => hf (List.mem_cons_of_mem _ hm)

/-- With so many providers at most, counting up from a place never gets too far: there are no more uids in
the way than entries. -/
theorem room_keep (hl : input.providers.length < 2 ^ 31 - 5000)
    (hc : claims.length = (asked (keep [] 0 input.providers)).length) :
    claims.length + unasked (keep [] 0 input.providers) ≤ input.providers.length ∧
      ∀ k ∈ keep [] 0 input.providers,
        firstUid + k.index + input.providers.length ≤ UInt32.size := by
  obtain ⟨hi, hk⟩ := index_keep [] 0 input.providers
  have hcount := asked_add_unasked (keep [] 0 input.providers)
  refine ⟨by omega, ?_⟩
  intro k hm
  have hlt := hi k hm
  rw [show UInt32.size = 4294967296 from rfl, show firstUid = 10000 from rfl]
  omega

theorem nodup_uids (h : input.resolve = .ok c)
    (hl : input.providers.length < 2 ^ 31 - 5000) : (c.providers.map Provider.uid).Nodup := by
  obtain ⟨claims, hp, hc, -⟩ := resolve_eq_ok h
  obtain ⟨he, hn⟩ := claimed_eq_ok List.nodup_nil hc
  rw [List.append_nil] at he
  have hlen : claims.length = (asked (keep [] 0 input.providers)).length := by simp [he]
  obtain ⟨hroom, hfit⟩ := room_keep hl hlen
  have hsub : asked (keep [] 0 input.providers) ⊆ claims := by
    intro uid hu
    simpa [he] using hu
  rw [he, List.nodup_reverse] at hn
  rw [hp]
  exact (uids_allot input.providers.length hsub hn hroom hfit).1

end ScoreRelay.ConfigInput
