import ScoreRelay.Config.Resolve

/-! What a configuration in force never has twice: a package, or a kind of network. -/
namespace ScoreRelay.ConfigInput

variable {input : ConfigInput} {c : Config} {taken : List UInt32} {ks : List Kept}
  {found types : List NetworkType} {names : List String}

theorem nodup_keep (seen : List String) (i : Nat) (ps : List ProviderInput) :
    ((keep seen i ps).map Kept.package).Nodup ∧
      ∀ k ∈ keep seen i ps, k.package ∉ seen := by
  induction ps generalizing seen i with
  | nil => simp [keep]
  | cons p ps ih =>
    unfold keep
    dsimp only
    split
    · exact ih seen (i + 1)
    · rename_i hp
      obtain ⟨hn, hs⟩ := ih (Text.trim p.package :: seen) (i + 1)
      have hseen : Text.trim p.package ∉ seen := by
        simp only [Bool.or_eq_true, List.contains_iff_mem, not_or] at hp
        exact hp.2
      refine ⟨List.nodup_cons.mpr ⟨?_, hn⟩, ?_⟩
      · intro hm
        obtain ⟨k, hk, he⟩ := List.mem_map.mp hm
        exact hs k hk (he ▸ List.mem_cons_self)
      · intro k hk
        rcases List.mem_cons.mp hk with rfl | hk
        · exact hseen
        · exact fun hm => hs k hk (List.mem_cons_of_mem _ hm)

theorem packages_allot : (allot taken ks).map Provider.package = ks.map Kept.package := by
  induction ks generalizing taken with
  | nil => rfl
  | cons k ks ih =>
    cases hu : k.input.uid with
    | none => simp only [allot, hu, List.map_cons, ih]
    | some uid => simp only [allot, hu, List.map_cons, ih]

theorem nodup_readTypes (hf : found.Nodup) (h : readTypes found names = .ok types) :
    types.Nodup := by
  induction names generalizing found with
  | nil =>
    obtain rfl : found = types := Except.ok.inj h
    exact hf
  | cons s names ih =>
    unfold readTypes at h
    split at h
    · cases h
    · rename_i t _
      refine ih ?_ h
      split
      · exact hf
      · rename_i hc
        refine List.nodup_append.mpr ⟨hf, by simp, fun a ha b hb he => hc ?_⟩
        rw [List.mem_singleton.mp hb] at he
        simpa using he ▸ ha

theorem resolve_eq_ok (h : input.resolve = .ok c) : ∃ taken,
    c.providers = allot taken (keep [] 0 input.providers) ∧
      claimed [] (keep [] 0 input.providers) = .ok taken ∧
      readTypes [] input.caches.networkTypes = .ok c.cacheTypes := by
  unfold resolve at h
  dsimp only at h
  generalize (if input.version = 0 then 1 else input.version) = version at h
  split at h
  · cases h
  · split at h
    · cases h
    · rename_i taken hc
      split at h
      · cases h
      · rename_i types ht
        obtain rfl := Except.ok.inj h
        exact ⟨taken, rfl, hc, ht⟩

theorem nodup_packages (h : input.resolve = .ok c) :
    (c.providers.map Provider.package).Nodup := by
  obtain ⟨taken, hp, -⟩ := resolve_eq_ok h
  rw [hp, packages_allot]
  exact (nodup_keep [] 0 input.providers).1

theorem nodup_cacheTypes (h : input.resolve = .ok c) : c.cacheTypes.Nodup := by
  obtain ⟨_, -, -, ht⟩ := resolve_eq_ok h
  exact nodup_readTypes List.nodup_nil ht

end ScoreRelay.ConfigInput
