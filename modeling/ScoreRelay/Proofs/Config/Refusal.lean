import Mathlib.Data.List.Induction
import Mathlib.Data.List.Sort
import ScoreRelay.Proofs.Config.Allotment

/-! What a configuration is refused for: its version, the first uid that two kept providers ask for, or the first
name that is of no kind of network, in this order. Entries that are dropped are no reason. -/
namespace ScoreRelay.ConfigInput

variable {input : ConfigInput} {ps : List ProviderInput} {p q : ProviderInput}
  {ks before after : List Kept} {k : Kept} {uid : UInt32} {i j : Nat} {names : List String}
  {found : List NetworkType} {e : ConfigError}

/-- Two kept entries ask for the same uid. -/
def Clash (ps : List ProviderInput) : Prop :=
  ∃ i j p q uid, i < j ∧ Stays ps i p ∧ Stays ps j q ∧ p.uid = some uid ∧ q.uid = some uid

/-- A kept entry asks for a uid that a kept one before it asks for, and there is no such thing before. -/
def FirstClash (ps : List ProviderInput) (q : ProviderInput) (uid : UInt32) : Prop :=
  ∃ j, Stays ps j q ∧ q.uid = some uid ∧ (∃ i p, i < j ∧ Stays ps i p ∧ p.uid = some uid) ∧
    ¬ Clash (ps.take j)

/-- The name reads as some kind of network. -/
def Names (s : String) : Prop := ∃ t, NetworkType.ofText s = .ok t

/-- Why a configuration is refused, each reason given that those above it do not apply. -/
inductive Refusal (input : ConfigInput) : ConfigError → Prop where
  | version (h : ¬ (input.version = 0 ∨ input.version = 1)) :
      Refusal input (.unsupportedVersion input.version)
  | uid {q : ProviderInput} {uid : UInt32} (hv : input.version = 0 ∨ input.version = 1)
      (h : FirstClash input.providers q uid) : Refusal input (.uidInUse uid (Text.trim q.package))
  | networkType {before after : List String} {s t : String}
      (hv : input.version = 0 ∨ input.version = 1) (hc : ¬ Clash input.providers)
      (hs : input.caches.networkTypes = before ++ s :: after) (hb : ∀ n ∈ before, Names n)
      (h : NetworkType.ofText s = .error t) : Refusal input (.unknownNetworkType t)

theorem mem_kept :
    k ∈ keep [] 0 ps ↔ k.package = Text.trim k.input.package ∧ Stays ps k.index k.input := by
  simp [mem_keep, Found]

theorem kept_of_stays (h : Stays ps i p) : ⟨i, Text.trim p.package, p⟩ ∈ keep [] 0 ps :=
  mem_kept.mpr ⟨rfl, h⟩

theorem stays_take : Stays (ps.take j) i p ↔ i < j ∧ Stays ps i p := by
  by_cases h : i < j
  · simp [Stays, List.take_take, h, Nat.min_eq_left (Nat.le_of_lt h)]
  · have hn : (ps.take j)[i]? = none := List.getElem?_take_eq_none (Nat.not_lt.mp h)
    simp only [Stays, hn, h, reduceCtorEq, false_and]

/-- Entries in the order of their places are known by their members. -/
theorem eq_of_ascending {ls : List Kept} (h : ks.Pairwise fun k k' => k.index < k'.index)
    (h' : ls.Pairwise fun k k' => k.index < k'.index) (hm : ∀ k, k ∈ ks ↔ k ∈ ls) : ks = ls :=
  have : Std.Irrefl fun k k' : Kept => k.index < k'.index := ⟨fun k => Nat.lt_irrefl k.index⟩
  have : Std.Antisymm fun k k' : Kept => k.index < k'.index :=
    ⟨fun _ _ hlt hgt => absurd hlt (Nat.lt_asymm hgt)⟩
  h.eq_of_mem_iff h' hm

/-- What is kept before a kept entry is what is kept of the entries before it. -/
theorem keep_take (h : keep [] 0 ps = before ++ k :: after) :
    before = keep [] 0 (ps.take k.index) := by
  have hasc := places_ascend [] 0 ps
  rw [h, List.pairwise_append, List.pairwise_cons] at hasc
  obtain ⟨hb, ⟨hk, -⟩, hbk⟩ := hasc
  refine eq_of_ascending hb (places_ascend _ _ _) fun k' => ?_
  have hmem : k' ∈ keep [] 0 (ps.take k.index) ↔ k'.index < k.index ∧ k' ∈ keep [] 0 ps := by
    rw [mem_kept, mem_kept, stays_take]
    tauto
  rw [hmem, h]
  constructor
  · intro hm
    exact ⟨hbk k' hm k List.mem_cons_self, List.mem_append_left _ hm⟩
  · rintro ⟨hlt, hm⟩
    rcases List.mem_append.mp hm with hm | hm
    · exact hm
    · rcases List.mem_cons.mp hm with rfl | hm
      · exact absurd hlt (Nat.lt_irrefl _)
      · exact absurd hlt (Nat.lt_asymm (hk k' hm))

theorem mem_asked : uid ∈ asked ks ↔ ∃ k ∈ ks, k.input.uid = some uid := by
  simp [asked]

theorem nodup_asked_iff : (asked (keep [] 0 ps)).Nodup ↔ ¬ Clash ps := by
  rw [asked, List.Nodup, List.pairwise_filterMap]
  constructor
  · rintro h ⟨i, j, p, q, uid, hij, hp, hq, hpu, hqu⟩
    obtain ⟨before, after, hk⟩ := List.append_of_mem (kept_of_stays hq)
    have hm := keep_take hk ▸ kept_of_stays (stays_take.mpr ⟨hij, hp⟩)
    rw [hk] at h
    exact (List.pairwise_append.mp h).2.2 _ hm _ List.mem_cons_self uid hpu uid hqu rfl
  · intro h
    refine (places_ascend [] 0 ps).imp_of_mem ?_
    rintro k k' hk hk' hlt uid hu _ hu' rfl
    exact h ⟨k.index, k'.index, k.input, k'.input, uid, hlt, (mem_kept.mp hk).2,
      (mem_kept.mp hk').2, hu, hu'⟩

theorem exists_first_clash (h : ¬ (asked ks).Nodup) : ∃ before k after uid,
    ks = before ++ k :: after ∧ k.input.uid = some uid ∧ (asked before).Nodup ∧
      uid ∈ asked before := by
  induction ks using List.reverseRecOn with
  | nil => exact absurd List.nodup_nil h
  | append_singleton ks k ih =>
    by_cases hn : (asked ks).Nodup
    · cases hu : k.input.uid with
      | none => exact absurd (by simpa [asked, hu] using hn) h
      | some uid =>
        refine ⟨ks, k, [], uid, rfl, hu, hn, ?_⟩
        by_contra hm
        have ha : asked (ks ++ [k]) = (asked ks).concat uid := by simp [asked, hu]
        exact h (ha ▸ hn.concat hm)
    · obtain ⟨before, k', after, uid, rfl, hu, hb, hm⟩ := ih hn
      exact ⟨before, k', after ++ [k], uid, by simp, hu, hb, hm⟩

theorem claimed_of_clash (hu : k.input.uid = some uid) (hn : (asked before).Nodup)
    (hm : uid ∈ asked before) :
    claimed [] (before ++ k :: after) = .error (.uidInUse uid k.package) := by
  rw [claimed_append hn (by simp)]
  simp [claimed, hu, hm]

theorem claimed_eq_error_iff : claimed [] (keep [] 0 ps) = .error e ↔
    ∃ q uid, FirstClash ps q uid ∧ e = .uidInUse uid (Text.trim q.package) := by
  constructor
  · intro h
    have hn : ¬ (asked (keep [] 0 ps)).Nodup := by
      intro hn
      rw [claimed_of_nodup hn (by simp)] at h
      cases h
    obtain ⟨before, k, after, uid, hk, hu, hb, hm⟩ := exists_first_clash hn
    obtain ⟨hp, hs⟩ := mem_kept.mp (hk ▸ List.mem_append_right before List.mem_cons_self)
    rw [hk, claimed_of_clash hu hb hm, hp] at h
    rw [keep_take hk] at hb hm
    obtain ⟨k', hk', hu'⟩ := mem_asked.mp hm
    obtain ⟨-, hs'⟩ := mem_kept.mp hk'
    obtain ⟨hlt, hs'⟩ := stays_take.mp hs'
    exact ⟨k.input, uid, ⟨k.index, hs, hu, ⟨k'.index, k'.input, hlt, hs', hu'⟩,
      nodup_asked_iff.mp hb⟩, (Except.error.inj h).symm⟩
  · rintro ⟨q, uid, ⟨j, hs, hu, ⟨i, p, hlt, hs', hu'⟩, hc⟩, rfl⟩
    obtain ⟨before, after, hk⟩ := List.append_of_mem (kept_of_stays hs)
    have hb := keep_take hk
    have hn : (asked before).Nodup := hb ▸ nodup_asked_iff.mpr hc
    have hm : uid ∈ asked before :=
      mem_asked.mpr ⟨_, hb ▸ kept_of_stays (stays_take.mpr ⟨hlt, hs'⟩), hu'⟩
    rw [hk, claimed_of_clash hu hn hm]

theorem not_clash_of_claimed {taken : List UInt32} (h : claimed [] (keep [] 0 ps) = .ok taken) :
    ¬ Clash ps := by
  obtain ⟨he, hn⟩ := claimed_eq_ok List.nodup_nil h
  rw [he, List.append_nil, List.nodup_reverse] at hn
  exact nodup_asked_iff.mp hn

theorem readTypes_eq_error_iff : readTypes found names = .error e ↔
    ∃ before s after t, names = before ++ s :: after ∧ (∀ n ∈ before, Names n) ∧
      NetworkType.ofText s = .error t ∧ e = .unknownNetworkType t := by
  induction names generalizing found with
  | nil => simp [readTypes]
  | cons s names ih =>
    unfold readTypes
    split
    · rename_i t ht
      constructor
      · intro h
        exact ⟨[], s, names, t, rfl, by simp, ht, (Except.error.inj h).symm⟩
      · rintro ⟨before, s', after, t', hs, hb, ht', rfl⟩
        cases before with
        | nil =>
          obtain ⟨rfl, -⟩ := List.cons.inj hs
          rw [Except.error.inj (ht.symm.trans ht')]
        | cons n before =>
          obtain ⟨rfl, -⟩ := List.cons.inj hs
          obtain ⟨u, hu⟩ := hb s List.mem_cons_self
          cases ht.symm.trans hu
    · rename_i t ht
      rw [ih]
      constructor
      · rintro ⟨before, s', after, t', rfl, hb, ht', rfl⟩
        exact ⟨s :: before, s', after, t', rfl, List.forall_mem_cons.mpr ⟨⟨t, ht⟩, hb⟩, ht', rfl⟩
      · rintro ⟨before, s', after, t', hs, hb, ht', rfl⟩
        cases before with
        | nil =>
          obtain ⟨rfl, -⟩ := List.cons.inj hs
          cases ht.symm.trans ht'
        | cons n before =>
          obtain ⟨rfl, rfl⟩ := List.cons.inj hs
          exact ⟨before, s', after, t', rfl, (List.forall_mem_cons.mp hb).2, ht', rfl⟩

theorem resolve_of_unsupported (h : ¬ (input.version = 0 ∨ input.version = 1)) :
    input.resolve = .error (.unsupportedVersion input.version) := by
  obtain ⟨h0, h1⟩ := not_or.mp h
  simp [resolve, h0, h1]

theorem resolve_of_supported (h : input.version = 0 ∨ input.version = 1) : input.resolve =
    (claimed [] (keep [] 0 input.providers)).bind fun taken =>
      (readTypes [] input.caches.networkTypes).map fun types =>
        ⟨1, input.enabled.getD true, allot taken (keep [] 0 input.providers), types,
          input.caches.filter.getD .none, resolveBinder input.binder⟩ := by
  have hv : (if input.version = 0 then 1 else input.version) = 1 := by
    rcases h with h | h <;> simp [h]
  simp only [resolve, hv]
  cases claimed [] (keep [] 0 input.providers) with
  | error e => rfl
  | ok taken => cases readTypes [] input.caches.networkTypes <;> rfl

/-- Each configuration that is refused is refused for its reason, and for no other. -/
theorem resolve_eq_error_iff : input.resolve = .error e ↔ Refusal input e := by
  by_cases hv : input.version = 0 ∨ input.version = 1
  · rw [resolve_of_supported hv]
    constructor
    · intro h
      cases hc : claimed [] (keep [] 0 input.providers) with
      | error e' =>
        obtain rfl : e' = e := by simpa [hc, Except.bind] using h
        obtain ⟨q, uid, hf, rfl⟩ := claimed_eq_error_iff.mp hc
        exact .uid hv hf
      | ok taken =>
        cases ht : readTypes [] input.caches.networkTypes with
        | error e' =>
          obtain rfl : e' = e := by simpa [hc, ht, Except.bind, Except.map] using h
          obtain ⟨before, s, after, t, hs, hb, hu, rfl⟩ := readTypes_eq_error_iff.mp ht
          exact .networkType hv (not_clash_of_claimed hc) hs hb hu
        | ok types => simp [hc, ht, Except.bind, Except.map] at h
    · intro h
      cases h with
      | version h => exact absurd hv h
      | uid hv h =>
        rw [claimed_eq_error_iff.mpr ⟨_, _, h, rfl⟩]
        rfl
      | networkType hv hc hs hb h =>
        rw [readTypes_eq_error_iff.mpr ⟨_, _, _, _, hs, hb, h, rfl⟩,
          claimed_of_nodup (nodup_asked_iff.mpr hc) (by simp)]
        rfl
  · rw [resolve_of_unsupported hv]
    constructor
    · intro h
      obtain rfl := Except.error.inj h
      exact .version hv
    · intro h
      cases h with
      | version => rfl
      | uid hv' => exact absurd hv' hv
      | networkType hv' => exact absurd hv' hv

end ScoreRelay.ConfigInput
