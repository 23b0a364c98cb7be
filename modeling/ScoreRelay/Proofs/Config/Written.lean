import Mathlib.Data.List.Forall2
import ScoreRelay.Proofs.Config.Refusal
import ScoreRelay.Proofs.Text.Trim

/-! What a configuration in force is made of, and that it stays as it is when it is written down and resolved
once more. -/
namespace ScoreRelay

open Text

/-- Something is there, without blanks at its ends. -/
def Neat (s : String) : Prop := s ≠ "" ∧ Trimmed s

/-- Nothing about the provider is left to be cut. -/
structure Provider.Tidy (q : Provider) : Prop where
  package : Neat q.package
  service : ∀ s ∈ q.service, Neat s
  serviceAddr : ∀ s ∈ q.serviceAddr, Neat s

/-- Nothing about the configuration is left to be settled. -/
structure Config.Tidy (c : Config) : Prop where
  version : c.version = 1
  providers : ∀ q ∈ c.providers, q.Tidy
  packages : (c.providers.map Provider.package).Nodup
  uids : (c.providers.map Provider.uid).Nodup
  cacheTypes : c.cacheTypes.Nodup
  backoff : c.binder.initialBackoff ≤ c.binder.maxBackoff

/-- The provider as it would be written down. -/
def Provider.written (q : Provider) : ProviderInput where
  package := q.package
  uid := some q.uid
  service := q.service
  serviceAddr := q.serviceAddr
  installed := some q.installed

/-- The configuration as it would be written down, with nothing left out. -/
def Config.written (c : Config) : ConfigInput where
  version := c.version
  enabled := some c.enabled
  providers := c.providers.map Provider.written
  caches := { networkTypes := c.cacheTypes.map NetworkType.name, filter := some c.cacheFilter }
  binder := {
    connectTimeout := some c.binder.connectTimeout
    initialBackoff := some c.binder.initialBackoff
    maxBackoff := some c.binder.maxBackoff }

namespace NetworkType

theorem ofText_name (t : NetworkType) : ofText t.name = .ok t := by cases t <;> decide

end NetworkType

namespace ConfigInput

variable {input : ConfigInput} {c : Config} {ps : List ProviderInput} {qs : List Provider} {ks : List Kept}
  {taken : List UInt32} {names : List String} {found types : List NetworkType} {o : Option String}

/-- The provider is what an entry says, with what it leaves out filled in. A uid that is left out may be any. -/
structure Stems (p : ProviderInput) (q : Provider) : Prop where
  package : q.package = trim p.package
  uid : ∀ uid, p.uid = some uid → q.uid = uid
  service : q.service = nonBlank p.service
  serviceAddr : q.serviceAddr = nonBlank p.serviceAddr
  installed : q.installed = p.installed.getD true

/-- The configuration is made of the kept entries, in their order, of the kinds of network that are named, each
where it is named first, and of what is said of the rest or is usual. -/
structure Makes (input : ConfigInput) (c : Config) : Prop where
  version : c.version = 1
  enabled : c.enabled = input.enabled.getD true
  providers : ∃ kept : List (Nat × ProviderInput), kept.Pairwise (fun x y => x.1 < y.1) ∧
    (∀ i p, (i, p) ∈ kept ↔ Stays input.providers i p) ∧
    List.Forall₂ (fun x q => Stems x.2 q) kept c.providers
  cacheTypes : ∃ named : List NetworkType, input.caches.networkTypes.map NetworkType.ofText = named.map .ok ∧
    c.cacheTypes = named.eraseDups
  cacheFilter : c.cacheFilter = input.caches.filter.getD .none
  connectTimeout : c.binder.connectTimeout = input.binder.connectTimeout.getD 5000
  initialBackoff : c.binder.initialBackoff = input.binder.initialBackoff.getD 500
  maxBackoff :
    c.binder.maxBackoff = max (input.binder.maxBackoff.getD 30000) c.binder.initialBackoff

/-- The later of two times, seen from the second. -/
theorem le_later (a b : UInt64) : b ≤ max a b := by
  change b ≤ if a ≤ b then b else a
  split
  · exact UInt64.le_refl b
  · rename_i h
    exact UInt64.le_of_lt (UInt64.not_le.mp h)

theorem later_of_le {a b : UInt64} (h : b ≤ a) : max a b = a := by
  change (if a ≤ b then b else a) = a
  split
  · rename_i h'
    exact UInt64.le_antisymm h h'
  · rfl

theorem neat_of_nonBlank {s : String} (h : nonBlank o = some s) : Neat s := by
  unfold nonBlank at h
  split at h
  · cases h
  · split at h
    · cases h
    · rename_i hne
      obtain rfl := Option.some.inj h
      exact ⟨fun he => hne (String.isEmpty_iff.mpr he), trimmed_trim _⟩

theorem nonBlank_of_neat (h : ∀ s ∈ o, Neat s) : nonBlank o = o := by
  cases o with
  | none => rfl
  | some s =>
    obtain ⟨hne, ht⟩ := h s rfl
    simp [nonBlank, trim_of_trimmed ht, hne]

theorem resolve_eq_ok_iff : input.resolve = .ok c ↔
    (input.version = 0 ∨ input.version = 1) ∧ ∃ taken types,
      claimed [] (keep [] 0 input.providers) = .ok taken ∧
      readTypes [] input.caches.networkTypes = .ok types ∧
      c = ⟨1, input.enabled.getD true, allot taken (keep [] 0 input.providers), types,
        input.caches.filter.getD .none, resolveBinder input.binder⟩ := by
  by_cases hv : input.version = 0 ∨ input.version = 1
  · rw [resolve_of_supported hv]
    cases claimed [] (keep [] 0 input.providers) with
    | error e => simp [Except.bind]
    | ok taken =>
      cases readTypes [] input.caches.networkTypes with
      | error e => simp [Except.bind, Except.map]
      | ok types => simp [Except.bind, Except.map, hv, eq_comm]
  · rw [resolve_of_unsupported hv]
    simp [hv]

section Types

theorem readTypes_eq_ok (h : readTypes found names = .ok types) : ∃ named : List NetworkType,
    names.map NetworkType.ofText = named.map .ok ∧
      types = found ++ (named.filter fun t => t ∉ found).eraseDups := by
  induction names generalizing found with
  | nil =>
    obtain rfl : found = types := Except.ok.inj h
    exact ⟨[], rfl, by simp⟩
  | cons s names ih =>
    unfold readTypes at h
    split at h
    · cases h
    · rename_i t ht
      obtain ⟨named, hn, rfl⟩ := ih h
      refine ⟨t :: named, by simp [ht, hn], ?_⟩
      by_cases hm : t ∈ found
      · simp [hm]
      · have hf : (named.filter fun u => u ∉ found ++ [t]) =
            (named.filter fun u => u ∉ found).filter fun u => !u == t := by
          rw [List.filter_filter]
          apply List.filter_congr
          intro u _
          by_cases hu : u = t <;> simp [hu]
        have hc : found.contains t = false := by simpa using hm
        rw [hc, if_neg Bool.false_ne_true, hf, List.filter_cons_of_pos (by simpa using hm),
          List.eraseDups_cons, List.append_assoc, List.singleton_append]

/-- Kinds without a repeat are read from their names as they are. -/
theorem readTypes_names (found : List NetworkType) (h : (found ++ types).Nodup) :
    readTypes found (types.map NetworkType.name) = .ok (found ++ types) := by
  induction types generalizing found with
  | nil => simp [readTypes]
  | cons t types ih =>
    have hm : t ∉ found := fun hm =>
      (List.nodup_append.mp h).2.2 t hm t List.mem_cons_self rfl
    rw [List.append_cons] at h ⊢
    have hc : found.contains t = false := by simpa using hm
    rw [List.map_cons, readTypes, NetworkType.ofText_name]
    simp only [hc, Bool.false_eq_true, if_false]
    exact ih _ h

end Types

section Providers

theorem forall₂_allot (taken : List UInt32) (ks : List Kept)
    (hp : ∀ k ∈ ks, k.package = trim k.input.package) :
    List.Forall₂ (fun k q => Stems k.input q) ks (allot taken ks) := by
  induction ks generalizing taken with
  | nil => exact .nil
  | cons k ks ih =>
    obtain ⟨hk, hp⟩ := List.forall_mem_cons.mp hp
    cases hu : k.input.uid with
    | some uid =>
      simp only [allot, hu]
      refine .cons ⟨hk, fun v hv => ?_, rfl, rfl, rfl⟩ (ih taken hp)
      exact Option.some.inj (hu.symm.trans hv)
    | none =>
      simp only [allot, hu]
      exact .cons ⟨hk, by simp [hu], rfl, rfl, rfl⟩ (ih _ hp)

/-- Every provider comes of a kept entry. -/
theorem exists_stems {kept : List (Nat × ProviderInput)} {q : Provider}
    (h : List.Forall₂ (fun x q => Stems x.2 q) kept qs) (hq : q ∈ qs) :
    ∃ x ∈ kept, Stems x.2 q := by
  induction h with
  | nil => simp at hq
  | cons hs _ ih =>
    rcases List.mem_cons.mp hq with rfl | hq
    · exact ⟨_, List.mem_cons_self, hs⟩
    · obtain ⟨x, hx, hs⟩ := ih hq
      exact ⟨x, List.mem_cons_of_mem _ hx, hs⟩

theorem tidy_of_stems {p : ProviderInput} {q : Provider} (h : Stems p q) (hp : trim p.package ≠ "") :
    q.Tidy where
  package := h.package ▸ ⟨hp, trimmed_trim _⟩
  service _ hs := neat_of_nonBlank (h.service ▸ hs)
  serviceAddr _ hs := neat_of_nonBlank (h.serviceAddr ▸ hs)

/-- Tidy providers with packages of their own are all kept, with what is written of them. -/
theorem allot_written (hq : ∀ q ∈ qs, q.Tidy) (hn : (qs.map Provider.package).Nodup)
    (seen : List String) (hs : ∀ q ∈ qs, q.package ∉ seen) (i : Nat) :
    asked (keep seen i (qs.map Provider.written)) = qs.map Provider.uid ∧
      ∀ taken, allot taken (keep seen i (qs.map Provider.written)) = qs := by
  induction qs generalizing seen i with
  | nil => exact ⟨rfl, fun _ => rfl⟩
  | cons q qs ih =>
    obtain ⟨hq, hqs⟩ := List.forall_mem_cons.mp hq
    obtain ⟨hnew, hn⟩ := List.nodup_cons.mp hn
    obtain ⟨hseen, hs⟩ := List.forall_mem_cons.mp hs
    obtain ⟨ha, hall⟩ := ih hqs hn (q.package :: seen) (by
      intro q' hq' hm
      rcases List.mem_cons.mp hm with he | hm
      · exact hnew (he ▸ List.mem_map_of_mem hq')
      · exact hs q' hq' hm) (i + 1)
    have ht : trim q.written.package = q.package := trim_of_trimmed hq.package.2
    have hk : keep seen i ((q :: qs).map Provider.written) = ⟨i, q.package, q.written⟩ ::
        keep (q.package :: seen) (i + 1) (qs.map Provider.written) := by
      simp [keep, ht, hq.package.1, hseen]
    rw [hk]
    refine ⟨by rw [asked_of_some rfl, ha]; rfl, fun taken => ?_⟩
    simp only [allot, Provider.written, nonBlank_of_neat hq.service,
      nonBlank_of_neat hq.serviceAddr, Option.getD_some]
    exact congrArg (q :: ·) (hall taken)

end Providers

theorem makes_of_resolve (h : input.resolve = .ok c) : Makes input c := by
  obtain ⟨-, taken, types, -, ht, rfl⟩ := resolve_eq_ok_iff.mp h
  obtain ⟨named, hn, rfl⟩ := readTypes_eq_ok ht
  refine ⟨rfl, rfl, ?_, ⟨named, hn, by simp⟩, rfl, rfl, rfl, rfl⟩
  refine ⟨(keep [] 0 input.providers).map fun k => (k.index, k.input), ?_, ?_, ?_⟩
  · exact List.pairwise_map.mpr (places_ascend _ _ _)
  · intro i p
    simp only [List.mem_map, Prod.mk.injEq]
    constructor
    · rintro ⟨k, hk, rfl, rfl⟩
      exact (mem_kept.mp hk).2
    · exact fun hs => ⟨_, kept_of_stays hs, rfl, rfl⟩
  · rw [List.forall₂_map_left_iff]
    exact forall₂_allot _ _ fun k hk => (mem_kept.mp hk).1

theorem tidy_of_resolve (h : input.resolve = .ok c)
    (hl : input.providers.length < 2 ^ 31 - 5000) : c.Tidy := by
  have hm := makes_of_resolve h
  refine ⟨hm.version, ?_, nodup_packages h, nodup_uids h hl, nodup_cacheTypes h, ?_⟩
  · obtain ⟨kept, -, hstays, hstems⟩ := hm.providers
    intro q hq
    obtain ⟨⟨i, p⟩, hx, hs⟩ := exists_stems hstems hq
    exact tidy_of_stems hs ((hstays i p).mp hx).2.1
  · rw [hm.maxBackoff]
    exact le_later _ _

theorem resolve_written (h : c.Tidy) : c.written.resolve = .ok c := by
  obtain ⟨ha, hall⟩ := allot_written h.providers h.packages [] (by simp) 0
  have hc : claimed [] (keep [] 0 c.written.providers) =
      .ok ((asked (keep [] 0 c.written.providers)).reverse ++ []) :=
    claimed_of_nodup (ha ▸ h.uids) (by simp)
  have hb : resolveBinder c.written.binder = c.binder := by
    simp [resolveBinder, Config.written, later_of_le h.backoff]
  refine resolve_eq_ok_iff.mpr ⟨Or.inr h.version, _, c.cacheTypes, hc,
    readTypes_names [] h.cacheTypes, ?_⟩
  rw [hb, show c.written.providers = c.providers.map Provider.written from rfl, hall, ← h.version]
  rfl

theorem exists_error_iff : (∃ e, input.resolve = .error e) ↔
    ¬ (input.version = 0 ∨ input.version = 1) ∨ Clash input.providers ∨
      ∃ s ∈ input.caches.networkTypes, ¬ Names s := by
  constructor
  · rintro ⟨e, h⟩
    cases resolve_eq_error_iff.mp h with
    | version hv => exact Or.inl hv
    | uid hv hf =>
      obtain ⟨j, hs, hu, ⟨i, p, hlt, hs', hu'⟩, -⟩ := hf
      exact Or.inr (Or.inl ⟨i, j, p, _, _, hlt, hs', hs, hu', hu⟩)
    | @networkType before after s t hv hc hs hb ht =>
      refine Or.inr (Or.inr ⟨s, hs ▸ List.mem_append_right _ List.mem_cons_self, ?_⟩)
      rintro ⟨u, hu⟩
      cases ht.symm.trans hu
  · intro h
    cases hr : input.resolve with
    | error e => exact ⟨e, rfl⟩
    | ok c =>
      obtain ⟨hv, taken, types, hc, ht, -⟩ := resolve_eq_ok_iff.mp hr
      obtain ⟨named, hn, -⟩ := readTypes_eq_ok ht
      rcases h with h | h | ⟨s, hs, h⟩
      · exact absurd hv h
      · exact absurd h (not_clash_of_claimed hc)
      · obtain ⟨t, -, ht⟩ := List.mem_map.mp (hn ▸ List.mem_map_of_mem hs)
        exact absurd ⟨t, ht.symm⟩ h

/-- A configuration is refused exactly if its version is not known, or two kept providers ask for the same uid, or
a name is of no kind of network, and then for the first of these. Otherwise it is made of the kept entries and of
the kinds named, each in the order of first appearance; it is tidy; and written down with nothing left out it
resolves to itself. -/
theorem resolved_stays_resolved (hl : input.providers.length < 2 ^ 31 - 5000) :
    (∀ e, input.resolve = .error e ↔ Refusal input e) ∧
      ((∃ e, input.resolve = .error e) ↔
        ¬ (input.version = 0 ∨ input.version = 1) ∨ Clash input.providers ∨
          ∃ s ∈ input.caches.networkTypes, ¬ Names s) ∧
      ∀ c, input.resolve = .ok c → Makes input c ∧ c.Tidy ∧ c.written.resolve = .ok c := by
  refine ⟨fun e => resolve_eq_error_iff, exists_error_iff, fun c h => ?_⟩
  have ht := tidy_of_resolve h hl
  exact ⟨makes_of_resolve h, ht, resolve_written ht⟩

section Untidy

/-- Blanks, a blank package, a package named twice with a uid that would clash, kinds named twice, and a longest
time to wait below the first one. -/
def untidyInput : ConfigInput where
  providers := [{ package := " a ", uid := some 10003, service := some "S " },
    { package := "  ", uid := some 10003 }, { package := "a", uid := some 10003 },
    { package := "b", serviceAddr := some " " }]
  caches := { networkTypes := [" Cell", "WIFI", "cellular"] }
  binder := { initialBackoff := some 900, maxBackoff := some 100 }

def untidied : Config where
  providers := [⟨"a", 10003, some "S", none, true⟩, ⟨"b", 10004, none, none, true⟩]
  cacheTypes := [.cellular, .wifi]
  binder := { initialBackoff := 900, maxBackoff := 900 }

theorem resolved_stays_resolved_untidy : untidyInput.providers.length < 2 ^ 31 - 5000 ∧
    untidyInput.resolve = .ok untidied ∧ untidied.Tidy ∧
    untidied.written.resolve = .ok untidied := by
  have hl : untidyInput.providers.length < 2 ^ 31 - 5000 := by decide
  have hr : untidyInput.resolve = .ok untidied := by decide +kernel
  exact ⟨hl, hr, ((resolved_stays_resolved hl).2.2 untidied hr).2⟩

end Untidy

end ConfigInput

end ScoreRelay
