import Mathlib.Data.List.Induction
import ScoreRelay.Proofs.Config.Uids
import ScoreRelay.Proofs.Roster.Active
import ScoreRelay.Service.Access

/-! A roster is told of packages and of the setting, one thing after the other. What was said last of
each is all that counts, and whoever it leaves in front is alone in passing for the scorer in charge. -/
namespace ScoreRelay

/-- What a roster can be told. -/
inductive Notice where
  | installed (package : String) (installed : Bool)
  | enabled (enabled : Bool)

namespace Notice

/-- What was said last of a package being installed. -/
def lastInstalled (package : String) (ns : List Notice) : Option Bool :=
  (ns.filterMap fun
    | .installed p b => if p = package then some b else none
    | .enabled _ => none).getLast?

/-- What was said last of the setting. -/
def lastEnabled (ns : List Notice) : Option Bool :=
  (ns.filterMap fun
    | .installed _ _ => none
    | .enabled b => some b).getLast?

variable {ns ns' : List Notice} {package p : String} {b : Bool}

@[simp] theorem lastInstalled_nil : lastInstalled package [] = none := rfl

@[simp] theorem lastEnabled_nil : lastEnabled [] = none := rfl

@[simp] theorem lastInstalled_snoc_installed : lastInstalled package (ns ++ [.installed p b]) =
    if p = package then some b else lastInstalled package ns := by
  simp only [lastInstalled, List.filterMap_append]
  split <;> simp [*]

@[simp] theorem lastInstalled_snoc_enabled :
    lastInstalled package (ns ++ [.enabled b]) = lastInstalled package ns := by
  simp [lastInstalled]

@[simp] theorem lastEnabled_snoc_installed :
    lastEnabled (ns ++ [.installed p b]) = lastEnabled ns := by
  simp [lastEnabled]

@[simp] theorem lastEnabled_snoc_enabled : lastEnabled (ns ++ [.enabled b]) = some b := by
  simp [lastEnabled]

end Notice

open Notice

namespace Provider

variable {p : Provider} {ps : List Provider} {ns : List Notice}

/-- The provider as some notices leave it. -/
def noted (ns : List Notice) (p : Provider) : Provider :=
  { p with installed := (lastInstalled p.package ns).getD p.installed }

/-- The provider has a service, and by what was said last, or else by its configuration, it is
installed. -/
def Stands (ns : List Notice) (p : Provider) : Prop :=
  p.service.isSome = true ∧ (lastInstalled p.package ns).getD p.installed = true

/-- The first of the providers that stands. -/
def Leads (ns : List Notice) (ps : List Provider) (p : Provider) : Prop :=
  ∃ before after, ps = before ++ p :: after ∧ p.Stands ns ∧ ∀ q ∈ before, ¬ q.Stands ns

theorem eligible_noted : (p.noted ns).eligible = true ↔ p.Stands ns := by
  simp [eligible, noted, Stands]

theorem find_noted : ps.find? (eligible ∘ noted ns) = some p ↔ Leads ns ps p := by
  rw [List.find?_eq_some_iff_append]
  constructor
  · rintro ⟨hp, before, after, rfl, hb⟩
    refine ⟨before, after, rfl, eligible_noted.mp hp, fun q hq hs => ?_⟩
    have hn := hb q hq
    rw [Function.comp_apply, eligible_noted.mpr hs] at hn
    contradiction
  · rintro ⟨before, after, rfl, hp, hb⟩
    refine ⟨eligible_noted.mpr hp, before, after, rfl, fun q hq => ?_⟩
    simpa [← eligible_noted] using hb q hq

theorem leads_unique {q : Provider} (h : Leads ns ps p) (h' : Leads ns ps q) : p = q :=
  Option.some.inj ((find_noted.mpr h).symm.trans (find_noted.mpr h'))

/-- Where uids are not shared, that of the leader belongs to nobody else. -/
theorem filter_uid_of_leads (hn : (ps.map Provider.uid).Nodup) (h : Leads ns ps p) :
    ps.filter (fun q => q.uid = p.uid) = [p] := by
  obtain ⟨before, after, rfl, -, -⟩ := h
  have hne : ∀ q ∈ before ++ after, q.uid ≠ p.uid := by
    have hp := (List.perm_middle.map Provider.uid).nodup_iff.mp hn
    rw [List.map_cons, List.nodup_cons] at hp
    exact fun q hq he => hp.1 (he ▸ List.mem_map_of_mem hq)
  have hb : before.filter (fun q => q.uid = p.uid) = [] := by
    simpa [List.filter_eq_nil_iff] using fun q hq => hne q (List.mem_append_left _ hq)
  have ha : after.filter (fun q => q.uid = p.uid) = [] := by
    simpa [List.filter_eq_nil_iff] using fun q hq => hne q (List.mem_append_right _ hq)
  rw [List.filter_append, List.filter_cons_of_pos (by simp), hb, ha, List.nil_append]

/-- What only the uid of a leader has, at most one of the providers has. -/
theorem countP_le_one {f : Provider → Bool} (hn : (ps.map Provider.uid).Nodup)
    (hf : ∀ q ∈ ps, f q = true → ∃ p, Leads ns ps p ∧ p.uid = q.uid) : ps.countP f ≤ 1 := by
  by_cases h : ∃ p, Leads ns ps p
  · obtain ⟨p, hp⟩ := h
    have hsame : ∀ q ∈ ps, f q = true → decide (q.uid = p.uid) = true := by
      intro q hq hfq
      obtain ⟨p', hp', he⟩ := hf q hq hfq
      rw [leads_unique hp hp', he, decide_eq_true_iff]
    calc ps.countP f
        ≤ ps.countP (fun q => q.uid = p.uid) := List.countP_mono_left hsame
      _ = 1 := by rw [List.countP_eq_length_filter, filter_uid_of_leads hn hp, List.length_singleton]
  · have hnone : ps.countP f = 0 := by
      rw [List.countP_eq_zero]
      intro q hq hfq
      obtain ⟨p, hp, -⟩ := hf q hq hfq
      exact h ⟨p, hp⟩
    omega

end Provider

namespace Roster

variable {r : Roster} {ns ns' : List Notice} {uid : UInt32}

def heed (r : Roster) : Notice → Roster
  | .installed package b => r.setInstalled package b
  | .enabled b => r.setEnabled b

def heedAll (r : Roster) (ns : List Notice) : Roster := ns.foldl heed r

theorem heedAll_snoc (n : Notice) : r.heedAll (ns ++ [n]) = (r.heedAll ns).heed n := by
  simp [heedAll]

/-- A roster keeps what was said last of each package and of the setting, and nothing else of what it was
told. -/
theorem heedAll_eq (r : Roster) (ns : List Notice) :
    r.heedAll ns = ⟨r.providers.map (Provider.noted ns), (lastEnabled ns).getD r.enabled⟩ := by
  induction ns using List.reverseRecOn with
  | nil =>
    have hp : r.providers.map (Provider.noted []) = r.providers.map id :=
      List.map_congr_left fun _ _ => rfl
    rw [hp, List.map_id]
    rfl
  | append_singleton ns n ih =>
    rw [heedAll_snoc, ih]
    cases n with
    | installed package b =>
      simp only [heed, setInstalled_eq, List.map_map, lastEnabled_snoc_installed]
      congr 1
      apply List.map_congr_left
      intro p _
      by_cases hp : p.package = package
      · simp [Provider.note, Provider.noted, hp]
      · simp [Provider.note, Provider.noted, hp, Ne.symm hp]
    | enabled b =>
      simp only [heed, setEnabled, lastEnabled_snoc_enabled]
      congr 1
      apply List.map_congr_left
      intro p _
      simp [Provider.noted]

theorem isActive_iff : r.lineup.isActive uid = true ↔ ∃ s, r.active = some s ∧ s.uid = uid := by
  unfold Lineup.isActive lineup
  cases r.active with
  | none => simp
  | some s => simp

/-- The scorer in charge is the provider that leads, while recommendations are on. -/
theorem isActive_heedAll : (r.heedAll ns).lineup.isActive uid = true ↔
    (lastEnabled ns).getD r.enabled = true ∧
      ∃ p, Provider.Leads ns r.providers p ∧ p.uid = uid := by
  simp only [isActive_iff, active_eq_some, heedAll_eq, List.find?_map, Option.map_eq_some_iff,
    Provider.find_noted]
  constructor
  · rintro ⟨s, ⟨he, q, ⟨p, hp, rfl⟩, rfl⟩, rfl⟩
    exact ⟨he, p, hp, rfl⟩
  · rintro ⟨he, p, hp, rfl⟩
    exact ⟨_, ⟨he, _, ⟨p, hp, rfl⟩, rfl⟩, rfl⟩

theorem heedAll_congr
    (hp : ∀ p ∈ r.providers, lastInstalled p.package ns' = lastInstalled p.package ns)
    (he : lastEnabled ns' = lastEnabled ns) : r.heedAll ns' = r.heedAll ns := by
  have hmap : r.providers.map (Provider.noted ns') = r.providers.map (Provider.noted ns) := by
    apply List.map_congr_left
    intro p hm
    rw [Provider.noted, Provider.noted, hp p hm]
  rw [heedAll_eq, heedAll_eq, hmap, he]

theorem asScorer_isOk (l : Lineup) (caller : Caller) :
    (Access.asScorer l caller).isOk = l.isActive caller.uid := by
  unfold Access.asScorer
  cases l.isActive caller.uid <;> rfl

/-- Whatever a roster was told since it was made of a configuration: a uid is that of the scorer in charge
exactly if recommendations are on and it belongs to the provider that leads; that uid is nobody else's; so
at most one of the providers may bring scores, whatever privileges are claimed; and the order in which
different packages and the setting were told of does not matter, nor what was overridden later. -/
theorem leader_alone_passes {input : ConfigInput} {c : Config} (h : input.resolve = .ok c)
    (hl : input.providers.length < 2 ^ 31 - 5000) (ns : List Notice) :
    let r := (ofConfig c).heedAll ns
    (∀ uid, r.lineup.isActive uid = true ↔ (lastEnabled ns).getD c.enabled = true ∧
      ∃ p, Provider.Leads ns c.providers p ∧ p.uid = uid) ∧
    (∀ p, Provider.Leads ns c.providers p → c.providers.filter (fun q => q.uid = p.uid) = [p]) ∧
    (∀ claims : Provider → List Privilege, c.providers.countP (fun p =>
      (Access.asScorer r.lineup ⟨p.uid, claims p⟩).isOk) ≤ 1) ∧
    ∀ ns', (∀ p ∈ c.providers, lastInstalled p.package ns' = lastInstalled p.package ns) →
      lastEnabled ns' = lastEnabled ns →
      ∀ uid, ((ofConfig c).heedAll ns').lineup.isActive uid = r.lineup.isActive uid := by
  intro r
  have hactive : ∀ uid, r.lineup.isActive uid = true ↔ (lastEnabled ns).getD c.enabled = true ∧
      ∃ p, Provider.Leads ns c.providers p ∧ p.uid = uid := fun uid => isActive_heedAll
  have hn := ConfigInput.nodup_uids h hl
  have halone : ∀ p, Provider.Leads ns c.providers p →
      c.providers.filter (fun q => q.uid = p.uid) = [p] :=
    fun p hp => Provider.filter_uid_of_leads hn hp
  refine ⟨hactive, halone, fun claims => ?_, ?_⟩
  · simp only [asScorer_isOk]
    exact Provider.countP_le_one hn fun q _ hq => ((hactive q.uid).mp hq).2
  · intro ns' hp he uid
    rw [heedAll_congr (r := ofConfig c) hp he]

section Trio

/-- Three providers, of which the second asks for the uid that the first would get. -/
def trioInput : ConfigInput where
  providers := [{ package := "a", service := some "S" },
    { package := " b ", uid := some 10000, service := some "T", installed := some false },
    { package := "c", service := some "U" }]

def trio : Config where
  providers := [⟨"a", 10001, some "S", none, true⟩, ⟨"b", 10000, some "T", none, false⟩,
    ⟨"c", 10002, some "U", none, true⟩]

/-- The first goes and the second comes, with news about a stranger and of the setting in between. -/
def trioNotices : List Notice :=
  [.installed "b" false, .installed "a" false, .enabled false, .installed "z" true,
    .installed "b" true, .enabled true]

/-- The second provider takes over, under the uid it asked for. -/
theorem leader_alone_passes_trio : trioInput.resolve = .ok trio ∧
    trioInput.providers.length < 2 ^ 31 - 5000 ∧
    ∀ uid, ((ofConfig trio).heedAll trioNotices).lineup.isActive uid = true ↔ uid = 10000 := by
  have hr : trioInput.resolve = .ok trio := by decide +kernel
  have hl : trioInput.providers.length < 2 ^ 31 - 5000 := by decide
  refine ⟨hr, hl, fun uid => ?_⟩
  have hb : Provider.Leads trioNotices trio.providers ⟨"b", 10000, some "T", none, false⟩ :=
    Provider.find_noted.mp (by decide +kernel)
  rw [(leader_alone_passes hr hl trioNotices).1 uid]
  constructor
  · rintro ⟨-, p, hp, rfl⟩
    rw [← Provider.leads_unique hb hp]
  · rintro rfl
    exact ⟨by decide, _, hb, rfl⟩

end Trio

end Roster

end ScoreRelay
