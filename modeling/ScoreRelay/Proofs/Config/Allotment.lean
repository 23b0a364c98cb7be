import Mathlib.Data.List.Basic
import ScoreRelay.Proofs.Config.Uids

/-! Which uid each kept provider gets. One that asks for a uid gets it; any other gets the first number from
its place on that nobody asks for and that was not given before, and counting up to it comes to an end. -/
namespace ScoreRelay.ConfigInput

variable {ps : List ProviderInput} {p : ProviderInput} {ks : List Kept} {k : Kept}
  {taken taken' : List UInt32} {start n : Nat} {uid given : UInt32}

/-- The entry at a place is kept: it names a package, and none before it names the same one. -/
def Stays (ps : List ProviderInput) (i : Nat) (p : ProviderInput) : Prop :=
  ps[i]? = some p ∧ Text.trim p.package ≠ "" ∧
    ∀ q ∈ ps.take i, Text.trim q.package ≠ Text.trim p.package

theorem stays_zero {q : ProviderInput} :
    Stays (p :: ps) 0 q ↔ p = q ∧ Text.trim q.package ≠ "" := by
  simp [Stays]

theorem stays_succ {i : Nat} {q : ProviderInput} : Stays (p :: ps) (i + 1) q ↔
    Stays ps i q ∧ Text.trim p.package ≠ Text.trim q.package := by
  simp only [Stays, List.getElem?_cons_succ, List.take_succ_cons, List.forall_mem_cons]
  grind

/-- A provider kept from the place `i` on, where the packages in `seen` have come before. -/
def Found (seen : List String) (i : Nat) (ps : List ProviderInput) (k : Kept) : Prop :=
  ∃ j, k.index = i + j ∧ k.package = Text.trim k.input.package ∧ Stays ps j k.input ∧
    k.package ∉ seen

/-- The entry in front, or one behind it. -/
theorem found_cons {seen : List String} {i : Nat} : Found seen i (p :: ps) k ↔
    (k = ⟨i, Text.trim p.package, p⟩ ∧ Text.trim p.package ≠ "" ∧ Text.trim p.package ∉ seen) ∨
      Found (Text.trim p.package :: seen) (i + 1) ps k := by
  constructor
  · rintro ⟨j, hi, hp, hs, hn⟩
    cases j with
    | zero =>
      obtain ⟨rfl, hne⟩ := stays_zero.mp hs
      refine Or.inl ⟨?_, hne, hp ▸ hn⟩
      cases k
      simp_all
    | succ j =>
      obtain ⟨hs, hne⟩ := stays_succ.mp hs
      refine Or.inr ⟨j, by omega, hp, hs, List.not_mem_cons_of_ne_of_not_mem ?_ hn⟩
      rw [hp]
      exact Ne.symm hne
  · rintro (⟨rfl, hne, hn⟩ | ⟨j, hi, hp, hs, hn⟩)
    · exact ⟨0, rfl, rfl, stays_zero.mpr ⟨rfl, hne⟩, hn⟩
    · obtain ⟨hne, hn⟩ := List.ne_and_not_mem_of_not_mem_cons hn
      rw [hp] at hne
      exact ⟨j + 1, by omega, hp, stays_succ.mpr ⟨hs, Ne.symm hne⟩, hn⟩

theorem mem_keep (seen : List String) (i : Nat) (ps : List ProviderInput) (k : Kept) :
    k ∈ keep seen i ps ↔ Found seen i ps k := by
  induction ps generalizing seen i with
  | nil => simp [keep, Found, Stays]
  | cons p ps ih =>
    rw [found_cons]
    unfold keep
    dsimp only
    split
    · rename_i h
      simp only [Bool.or_eq_true, String.isEmpty_iff, List.contains_iff_mem] at h
      -- an entry that is dropped takes no other one with it
      have hpass : Found (Text.trim p.package :: seen) (i + 1) ps k ↔ Found seen (i + 1) ps k := by
        constructor
        · rintro ⟨j, hi, hp, hs, hn⟩
          exact ⟨j, hi, hp, hs, fun hm => hn (List.mem_cons_of_mem _ hm)⟩
        · rintro ⟨j, hi, hp, hs, hn⟩
          refine ⟨j, hi, hp, hs, List.not_mem_cons_of_ne_of_not_mem (fun he => ?_) hn⟩
          rcases h with h | h
          · exact hs.2.1 (by rw [← hp, he, h])
          · exact hn (he ▸ h)
      have hdrop : ¬ (Text.trim p.package ≠ "" ∧ Text.trim p.package ∉ seen) := by
        rintro ⟨hne, hn⟩
        exact h.elim hne hn
      rw [ih, hpass]
      exact ⟨Or.inr, fun hk => hk.resolve_left fun hk => hdrop hk.2⟩
    · rename_i h
      simp only [Bool.or_eq_true, String.isEmpty_iff, List.contains_iff_mem, not_or] at h
      rw [List.mem_cons, ih]
      simp [h]

theorem places_ascend (seen : List String) (i : Nat) (ps : List ProviderInput) :
    (keep seen i ps).Pairwise fun k k' => k.index < k'.index := by
  induction ps generalizing seen i with
  | nil => exact List.Pairwise.nil
  | cons p ps ih =>
    unfold keep
    dsimp only
    split
    · exact ih seen (i + 1)
    · refine List.pairwise_cons.mpr ⟨?_, ih _ _⟩
      intro k hk
      obtain ⟨j, hi, -⟩ := (mem_keep _ _ _ k).mp hk
      dsimp only
      omega

/-- Uids that nobody asked for before are claimed one after the other. -/
theorem claimed_append {before : List Kept} (hn : (asked before).Nodup)
    (hd : ∀ uid ∈ asked before, uid ∉ taken) (rest : List Kept) :
    claimed taken (before ++ rest) = claimed ((asked before).reverse ++ taken) rest := by
  induction before generalizing taken with
  | nil => rfl
  | cons k before ih =>
    cases hu : k.input.uid with
    | none =>
      rw [asked_of_none hu] at hn hd ⊢
      simpa [claimed, hu] using ih hn hd
    | some uid =>
      rw [asked_of_some hu] at hn hd ⊢
      obtain ⟨hnew, hn⟩ := List.nodup_cons.mp hn
      obtain ⟨hfree, hd⟩ := List.forall_mem_cons.mp hd
      have hrec : claimed (uid :: taken) (before ++ rest) =
          claimed ((asked before).reverse ++ uid :: taken) rest := by
        apply ih hn
        intro v hv hm
        rcases List.mem_cons.mp hm with rfl | hm
        · exact hnew hv
        · exact hd v hv hm
      simp [claimed, hu, hfree, hrec]

/-- With no uid asked for twice there is nothing to refuse. -/
theorem claimed_of_nodup (hn : (asked ks).Nodup) (hd : ∀ uid ∈ asked ks, uid ∉ taken) :
    claimed taken ks = .ok ((asked ks).reverse ++ taken) := by
  have h := claimed_append hn hd []
  rwa [List.append_nil] at h

/-- How a provider comes by its uid, with those taken that others ask for or were given before. -/
def Obtains (taken : List UInt32) (k : Kept) (uid : UInt32) : Prop :=
  match k.input.uid with
  | some own => uid = own
  | none => firstUid + k.index < UInt32.size ∧ Climbs taken (UInt32.ofNat (firstUid + k.index)) uid

theorem Obtains.congr (he : ∀ v, v ∈ taken ↔ v ∈ taken') (h : Obtains taken k uid) :
    Obtains taken' k uid := by
  unfold Obtains at h ⊢
  split at h
  · exact h
  · exact ⟨h.1, h.2.congr he⟩

/-- Each provider in turn, as far as the room for uids taken and yet to be given reaches. -/
theorem obtains_allot (room : Nat) (hsub : asked ks ⊆ taken)
    (hroom : taken.length + unasked ks ≤ room)
    (hfit : ∀ k ∈ ks, firstUid + k.index + room ≤ UInt32.size) (n : Nat) (hk : ks[n]? = some k) :
    ∃ q, (allot taken ks)[n]? = some q ∧ q.package = k.package ∧
      Obtains (((allot taken ks).take n).map Provider.uid ++ taken) k q.uid := by
  induction ks generalizing taken n with
  | nil => simp at hk
  | cons k' ks ih =>
    obtain ⟨hk', hfit⟩ := List.forall_mem_cons.mp hfit
    cases hu : k'.input.uid with
    | some uid =>
      rw [asked_of_some hu] at hsub
      rw [unasked_of_some hu] at hroom
      obtain ⟨hmem, hsub⟩ := List.cons_subset.mp hsub
      simp only [allot, hu]
      cases n with
      | zero =>
        obtain rfl : k' = k := by simpa using hk
        exact ⟨_, rfl, rfl, by simp [Obtains, hu]⟩
      | succ n =>
        obtain ⟨q, hq, hp, ho⟩ := ih hsub hroom hfit n hk
        refine ⟨q, hq, hp, ho.congr fun v => ?_⟩
        simp only [List.take_succ_cons, List.map_cons, List.cons_append, List.mem_cons]
        constructor
        · exact Or.inr
        · rintro (rfl | hv)
          · exact List.mem_append_right _ hmem
          · exact hv
    | none =>
      rw [asked_of_none hu] at hsub
      rw [unasked_of_none hu] at hroom
      simp only [allot, hu]
      cases n with
      | zero =>
        obtain rfl : k' = k := by simpa using hk
        refine ⟨_, rfl, rfl, ?_⟩
        simp only [Obtains, hu, List.take_zero, List.map_nil, List.nil_append]
        exact ⟨by omega, climbs_countUp (by omega)⟩
      | succ n =>
        generalize countUp taken taken.length (UInt32.ofNat (firstUid + k'.index)) = first
        have hlen : (first :: taken).length + unasked ks ≤ room := by
          rw [List.length_cons]
          omega
        obtain ⟨q, hq, hp, ho⟩ := ih (List.subset_cons_of_subset first hsub) hlen hfit n hk
        refine ⟨q, hq, hp, ho.congr fun v => ?_⟩
        simp only [List.take_succ_cons, List.map_cons, List.cons_append, List.mem_cons,
          List.mem_append]
        grind

theorem readTypes_eq_error {found : List NetworkType} {names : List String} {e : ConfigError}
    (h : readTypes found names = .error e) : ∃ t, e = .unknownNetworkType t := by
  induction names generalizing found with
  | nil => cases h
  | cons s names ih =>
    unfold readTypes at h
    split at h
    · rename_i t _
      exact ⟨t, (Except.error.inj h).symm⟩
    · exact ih h

theorem resolve_of_claimed {input : ConfigInput} (hc : claimed [] (keep [] 0 input.providers) = .ok taken) :
    (∀ c, input.resolve = .ok c → c.providers = allot taken (keep [] 0 input.providers)) ∧
      ∀ uid package, input.resolve ≠ .error (.uidInUse uid package) := by
  constructor
  · intro c h
    obtain ⟨claims, hp, hc', -⟩ := resolve_eq_ok h
    rw [hp, Except.ok.inj (hc'.symm.trans hc)]
  · intro uid package h
    unfold resolve at h
    dsimp only at h
    generalize (if input.version = 0 then 1 else input.version) = version at h
    rw [hc] at h
    split at h
    · cases h
    · dsimp only at h
      split at h
      · rename_i e ht
        obtain ⟨t, rfl⟩ := readTypes_eq_error ht
        cases h
      · cases h

/-- As long as no two kept providers ask for the same uid, and there are not too many, each gets one. Kept are
the entries that name a package first, in their order. Whoever asks for a uid gets it. Any other gets the
least uid from its place on that no kept provider asks for, before or after it, and that none before it was
given; counting up to that one by one ends there and never goes past the largest uid. No two get the same. -/
theorem uids_allotted {input : ConfigInput} (hl : input.providers.length < 2 ^ 31 - 5000)
    (hn : (asked (keep [] 0 input.providers)).Nodup) :
    let kept := keep [] 0 input.providers
    (∀ k, k ∈ kept ↔
        k.package = Text.trim k.input.package ∧ Stays input.providers k.index k.input) ∧
      kept.Pairwise (fun k k' => k.index < k'.index) ∧
      ∃ claims, claimed [] kept = .ok claims ∧
        (∀ uid, uid ∈ claims ↔ ∃ i p, Stays input.providers i p ∧ p.uid = some uid) ∧
        (∀ c, input.resolve = .ok c → c.providers = allot claims kept) ∧
        (∀ uid package, input.resolve ≠ .error (.uidInUse uid package)) ∧
        (allot claims kept).map Provider.package = kept.map Kept.package ∧
        (∀ n k, kept[n]? = some k → ∃ q, (allot claims kept)[n]? = some q ∧
          (∀ uid, k.input.uid = some uid → q.uid = uid) ∧
          (k.input.uid = none →
            let gone := ((allot claims kept).take n).map Provider.uid ++ claims
            let start := firstUid + k.index
            start < UInt32.size ∧ Climbs gone (UInt32.ofNat start) q.uid ∧
              start ≤ q.uid.toNat ∧ q.uid ∉ gone ∧
              ∀ u : UInt32, start ≤ u.toNat → u ∉ gone → q.uid.toNat ≤ u.toNat)) ∧
        ((allot claims kept).map Provider.uid).Nodup := by
  intro kept
  have hmem (k : Kept) : k ∈ kept ↔
      k.package = Text.trim k.input.package ∧ Stays input.providers k.index k.input := by
    simp [kept, mem_keep, Found]
  have hdistinct : ∀ uid ∈ asked kept, uid ∉ ([] : List UInt32) := by simp
  have hc : claimed [] kept = .ok (asked kept).reverse := by
    simpa using claimed_of_nodup hn hdistinct
  have hlen : (asked kept).reverse.length = (asked (keep [] 0 input.providers)).length := by
    simp [kept]
  obtain ⟨hroom, hfit⟩ := room_keep hl hlen
  have hsub : asked kept ⊆ (asked kept).reverse := fun uid hu => List.mem_reverse.mpr hu
  obtain ⟨hp, he⟩ := resolve_of_claimed hc
  refine ⟨hmem, places_ascend _ _ _, (asked kept).reverse, hc, ?_, hp, he, packages_allot, ?_,
    (uids_allot _ hsub hn hroom hfit).1⟩
  · intro uid
    rw [List.mem_reverse, asked, List.mem_filterMap]
    constructor
    · rintro ⟨k, hk, hu⟩
      exact ⟨k.index, k.input, ((hmem k).mp hk).2, hu⟩
    · rintro ⟨i, p, hs, hu⟩
      exact ⟨⟨i, Text.trim p.package, p⟩, (hmem _).mpr ⟨rfl, hs⟩, hu⟩
  · intro n k hk
    obtain ⟨q, hq, -, ho⟩ := obtains_allot input.providers.length hsub hroom hfit n hk
    refine ⟨q, hq, ?_, ?_⟩
    · intro uid hu
      simpa [Obtains, hu] using ho
    · intro hu gone start
      simp only [Obtains, hu] at ho
      obtain ⟨hlt, hclimb⟩ := ho
      obtain ⟨hle, hfree, hleast⟩ := hclimb.least
      rw [UInt32.toNat_ofNat_of_lt' hlt] at hle hleast
      exact ⟨hlt, hclimb, hle, hfree, hleast⟩

/-- Of five entries the second is dropped. The first and the third ask for no uid, and the last two ask for
those that are at their places. -/
def crowdedInput : ConfigInput where
  providers := [{ package := "a" }, { package := " a " }, { package := "b" },
    { package := "c", uid := some 10000 }, { package := "d", uid := some 10002 }]

def crowded : Config where
  providers := [⟨"a", 10001, none, none, true⟩, ⟨"b", 10003, none, none, true⟩,
    ⟨"c", 10000, none, none, true⟩, ⟨"d", 10002, none, none, true⟩]

/-- The second to be kept begins at its place in the whole list, and has one step to go. -/
theorem uids_allotted_crowded : crowdedInput.providers.length < 2 ^ 31 - 5000 ∧
    (asked (keep [] 0 crowdedInput.providers)).Nodup ∧ crowdedInput.resolve = .ok crowded ∧
    (crowded.providers.map Provider.uid).Nodup ∧ Climbs [10001, 10002, 10000] 10002 10003 := by
  have hl : crowdedInput.providers.length < 2 ^ 31 - 5000 := by decide
  have hn : (asked (keep [] 0 crowdedInput.providers)).Nodup := by decide +kernel
  have hr : crowdedInput.resolve = .ok crowded := by decide +kernel
  obtain ⟨-, -, claims, hc, -, hp, -, -, hall, hd⟩ := uids_allotted hl hn
  obtain rfl : [10002, 10000] = claims := by
    have hc' : claimed [] (keep [] 0 crowdedInput.providers) = .ok [10002, 10000] := by
      decide +kernel
    exact Except.ok.inj (hc'.symm.trans hc)
  rw [← hp crowded hr] at hall hd
  obtain ⟨q, hq, -, hgone⟩ := hall 1 ⟨2, "b", { package := "b" }⟩ (by decide +kernel)
  obtain rfl : (⟨"b", 10003, none, none, true⟩ : Provider) = q := Option.some.inj hq
  exact ⟨hl, hn, hr, hd, (hgone rfl).2.1⟩

end ScoreRelay.ConfigInput
