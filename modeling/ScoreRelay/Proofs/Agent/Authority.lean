import Mathlib.Data.List.Induction
import ScoreRelay.Json.Printer
import ScoreRelay.Proofs.Agent.Delivery
import ScoreRelay.Proofs.Agent.Following
import ScoreRelay.Proofs.Config.Resolve
import ScoreRelay.Scripted.Binder

/-! Whose scores the caches of an agent hold. A scorer that loses its place takes its scores with it as
long as there is a link to give up; they stay behind if it goes away unlinked and another takes over. -/
namespace ScoreRelay.Agent

variable {σ : Type} {b : Binder σ} {a : Agent σ} {x : Input} {xs : List Input} {r : Roster}
  {k : Nat} {m : MemoryCache} {n : ScoredNetwork} {s : Scorer}

/-- A record is taken into the cache at a place: the scorer in charge brings it, it is of the cache's
kind, and the filter lets it pass. -/
def Accepted (a : Agent σ) (x : Input) (k : Nat) (n : ScoredNetwork) : Prop :=
  ∃ networks m, x.request?.bind (brought a.lineup) = some networks ∧ n ∈ networks ∧
    a.caches[k]? = some m ∧ n.networkType = m.networkType ∧ m.accepts n.key = true

/-- The record at a place was taken in when `x` came, and none with its key has been since. -/
structure Origin (b : Binder σ) (a : Agent σ) (k : Nat) (n : ScoredNetwork) (before : List Input)
    (x : Input) (after : List Input) : Prop where
  accepted : Accepted (run b a before) x k n
  latest : ∀ later y rest, after = later ++ y :: rest →
    ∀ n', Accepted (run b a (before ++ x :: later)) y k n' → n'.key ≠ n.key

/-- The scorer that gave each record held has been in charge ever since. -/
def Fresh (b : Binder σ) (a : Agent σ) (xs : List Input) : Prop :=
  ∀ k m n, (run b a xs).caches[k]? = some m → n ∈ m.scores →
    ∃ before x after s, xs = before ++ x :: after ∧ Origin b a k n before x after ∧
      (run b a before).roster.active = some s ∧
        ∀ later, later <+: after → (run b a (before ++ x :: later)).roster.active = some s

/-- The package of the scorer in charge goes away while nothing is linked, and another takes over. -/
def Lapse (a : Agent σ) (x : Input) : Prop :=
  ∃ s s', a.roster.active = some s ∧ a.service.link.state = .unbound ∧
    x.request? = some (.packageEvent (.removed s.package)) ∧
      (a.roster.setInstalled s.package false).active = some s'

theorem brought_amend (q : Request) :
    brought (q.amend r).lineup q = brought r.lineup q := by
  cases q <;> rfl

theorem caches_of_no_request (h : x.request? = none) : (step b a x).caches = a.caches := by
  obtain ⟨state, queue, -, hs⟩ := step_of_no_request (b := b) (a := a) h
  rw [hs]
  rfl

/-- What a cache holds after a step was taken in by it, or was held before and not replaced. -/
theorem held_step (h : Tended a.service) (hm : (step b a x).caches[k]? = some m)
    (hn : n ∈ m.scores) : Accepted a x k n ∨
      (∃ m₀, a.caches[k]? = some m₀ ∧ n ∈ m₀.scores) ∧
        ∀ n', Accepted a x k n' → n'.key ≠ n.key := by
  have hnone (hx : x.request?.bind (brought a.lineup) = none) (n' : ScoredNetwork) :
      Accepted a x k n' → n'.key ≠ n.key := by
    rintro ⟨networks, m', hb, -⟩
    rw [hx] at hb
    contradiction
  cases hx : x.request? with
  | none =>
    rw [caches_of_no_request hx] at hm
    exact Or.inr ⟨⟨m, hm, hn⟩, hnone (by rw [hx]; rfl)⟩
  | some q =>
    rw [step_of_request hx] at hm
    have hxb : x.request?.bind (brought a.lineup) = brought (q.amend a.roster).lineup q := by
      rw [hx, Option.bind_some, brought_amend]
      rfl
    cases hb : brought (q.amend a.roster).lineup q with
    | none =>
      obtain ⟨f, hr, hf⟩ := recached_of_not_brought (b := b) h hb
      have hc : (a.caches.map f)[k]? = some m := hr.2 ▸ hm
      rw [List.getElem?_map, Option.map_eq_some_iff] at hc
      obtain ⟨m₀, hm₀, rfl⟩ := hc
      refine Or.inr ⟨⟨m₀, hm₀, ?_⟩, hnone (hxb.trans hb)⟩
      rcases (hf m₀).2 with he | he <;> rw [he] at hn
      · exact hn
      · contradiction
    | some networks =>
      have hr := recached_of_brought (b := b) h hb
      have hc : (a.caches.map (delivered networks))[k]? = some m := hr.2 ▸ hm
      rw [List.getElem?_map, Option.map_eq_some_iff] at hc
      obtain ⟨m₀, hm₀, rfl⟩ := hc
      rcases mem_delivered (h.ascending m₀ (List.mem_of_getElem? hm₀)) hn with
        ⟨hnew, ht, ha⟩ | ⟨hold, hnew⟩
      · exact Or.inl ⟨networks, m₀, hxb.trans hb, hnew, hm₀, ht, ha⟩
      · refine Or.inr ⟨⟨m₀, hm₀, hold⟩, ?_⟩
        rintro n' ⟨networks', m', hb', hn', hm', ht, ha⟩
        obtain rfl : networks = networks' := Option.some.inj (hb.symm.trans (hxb.symm.trans hb'))
        obtain rfl : m₀ = m' := Option.some.inj (hm₀.symm.trans hm')
        exact hnew n' hn' ht ha

theorem triggers_of_installs {e : PackageEvent} {package : String} {installed : Bool}
    (h : e.installs = some (package, installed)) : e.triggers = [⟨package, true⟩] := by
  cases e <;> simp_all [PackageEvent.installs, PackageEvent.triggers]

/-- News about a candidate comes to one evaluation. -/
theorem packageEvent_of_installs (h : a.Following) {e : PackageEvent} {package : String}
    {installed : Bool} (he : e.installs = some (package, installed))
    (hp : package ∈ a.roster.candidates) (l : Lineup) :
    (a.service.packageEvent (ports b) l e).2 =
      (Service.packageChanged (ports b) l ⟨package, true⟩ a.service).2 := by
  have hc : a.roster.candidates ≠ [] := List.ne_nil_of_mem hp
  have hm : a.service.monitors.packages = some ⟨a.roster.candidates, ()⟩ := by
    rw [h.monitors, watching_of_ne hc]
  have hr : PackageMonitor.relevant ⟨a.roster.candidates, ()⟩ e = [⟨package, true⟩] := by
    simp [PackageMonitor.relevant, triggers_of_installs he, PackageMonitor.watches, hp]
  rw [Service.packageEvent_of_watched hm, hr]
  simp only [PackageMonitor.callAll]
  split <;> rename_i heq <;> rw [heq]

theorem cleared_of_recached {a' : Agent σ}
    (h : Recached MemoryCache.clear a.service a'.service) : ∀ m ∈ a'.caches, m.scores = [] := by
  intro m hm
  rw [caches, world, h.2] at hm
  obtain ⟨m₀, -, rfl⟩ := List.mem_map.mp hm
  rfl

/-- A link to a scorer of another package than that of the one now wanted is given up. -/
theorem recached_bindTo_of_replaced {s' : Scorer} {l : Lineup} (hf : a.Following)
    (ht : Tended a.service) (hs : a.roster.active = some s) (hr : r.active = some s')
    (hl : l.active = r.active) (hne : s'.package ≠ s.package)
    (hb : a.service.link.state ≠ .unbound) :
    Recached MemoryCache.clear a.service (Service.bindTo (ports b) l.active a.service).2 := by
  obtain ⟨held, hu⟩ := Option.ne_none_iff_exists'.mp (mt LinkState.endpoint_eq_none_iff.mp hb)
  refine recached_bindTo_of_other ht.served hu ?_
  intro hw
  obtain ⟨e, he, hp⟩ := Roster.endpoint_of_active hs
  obtain ⟨e', he', hp'⟩ := Roster.endpoint_of_active hr
  have hheld : a.roster.lineup.endpoint = some held := Link.endpoint_of_follows hf.link hu
  simp only [Roster.lineup, Lineup.endpoint, hs, Option.bind_some, he] at hheld
  simp only [hl, hr, Option.bind_some, he'] at hw
  have hee : e' = e := Option.some.inj (hw.trans hheld.symm)
  exact hne (by rw [← hp', hee, hp])

/-- News that puts another scorer in charge, or none, clears the caches, unless the link has lapsed. -/
theorem authority_packageEvent (hf : a.Following) (ht : Tended a.service)
    (hs : a.roster.active = some s) {e : PackageEvent}
    (hx : x.request? = some (.packageEvent e)) :
    (step b a x).roster.active = some s ∨ Lapse a x ∨
      ∀ m ∈ (step b a x).caches, m.scores = [] := by
  rw [step_of_request hx]
  cases he : e.installs with
  | none =>
    left
    simpa [Request.amend, he] using hs
  | some news =>
    obtain ⟨package, installed⟩ := news
    have hr : (Request.packageEvent e).amend a.roster = a.roster.setInstalled package installed := by
      simp [Request.amend, he]
    rw [hr]
    by_cases hp : package ∈ a.roster.candidates
    swap
    · left
      rwa [Roster.setInstalled_of_stranger hp]
    have hl : package ∈ (a.roster.setInstalled package installed).lineup.candidates := by
      simpa [Roster.lineup] using hp
    simp only [effect]
    rw [packageEvent_of_installs hf he hp]
    cases hs' : (a.roster.setInstalled package installed).active with
    | none =>
      refine Or.inr (Or.inr (cleared_of_recached (a := a) ?_))
      exact recached_packageChanged_of_none ht.served hl hs'
    | some s' =>
      by_cases hne : s' = s
      · exact Or.inl (by rw [hne])
      by_cases hforce : s'.package = package
      · refine Or.inr (Or.inr (cleared_of_recached (a := a) ?_))
        rw [Service.packageChanged_of_forced hl hs' rfl hforce]
        exact recached_bindTo_release ht.served
      -- Only the removal of the scorer in charge is left, which does not force a release.
      obtain ⟨rfl, rfl⟩ := Roster.removed_of_setInstalled hs hs' hne hforce
      by_cases hu : a.service.link.state = .unbound
      · have hev : e = .removed s.package := by
          cases e <;> simp_all [PackageEvent.installs]
        exact Or.inr (Or.inl ⟨s, s', hs, hu, hev ▸ hx, hs'⟩)
      · refine Or.inr (Or.inr (cleared_of_recached (a := a) ?_))
        rw [Service.packageChanged_of_other hl hs' hforce]
        exact recached_bindTo_of_replaced hf ht hs hs' rfl hforce hu

theorem authority_step (hf : a.Following) (ht : Tended a.service)
    (hs : a.roster.active = some s) (x : Input) :
    (step b a x).roster.active = some s ∨ Lapse a x ∨
      ∀ m ∈ (step b a x).caches, m.scores = [] := by
  cases hx : x.request? with
  | none =>
    obtain ⟨state, queue, -, he⟩ := step_of_no_request (b := b) (a := a) hx
    rw [he]
    exact Or.inl hs
  | some q =>
    cases q with
    | packageEvent e => exact authority_packageEvent hf ht hs hx
    | settingChanged c =>
      rw [step_of_request hx]
      by_cases hc : c.enabled = true
      · left
        obtain ⟨hen, hp⟩ := Roster.active_eq_some.mp hs
        exact Roster.active_eq_some.mpr ⟨hc, hp⟩
      · have hn : ((Request.settingChanged c).amend a.roster).lineup.endpoint = none := by
          simp [Request.amend, Roster.setEnabled, Roster.lineup, Roster.active, Lineup.endpoint, hc]
        have hcand : a.roster.candidates ≠ [] :=
          List.ne_nil_of_mem (Roster.package_mem_of_active hs)
        refine Or.inr (Or.inr (cleared_of_recached (a := a) ?_))
        simp only [effect, Service.settingEvent_eq, hf.monitors, watching_of_ne hcand,
          Option.isSome_some, if_true, Service.evaluate]
        rw [Service.bindTo_of_none hn]
        exact recached_release ht.served
    | _ =>
      rw [step_of_request hx]
      exact Or.inl hs

/-- After a lapse another scorer is in charge of the scores of the one that is gone. -/
theorem lapse_step (hf : a.Following) (h : Lapse a x) :
    (step b a x).caches = a.caches ∧ (step b a x).roster.active ≠ a.roster.active := by
  obtain ⟨s, s', hs, hu, hx, hs'⟩ := h
  have hne : s'.package ≠ s.package := Roster.package_ne_of_removed hs'
  have hp := Roster.package_mem_of_active hs
  rw [step_of_request hx]
  refine ⟨?_, fun he => hne ?_⟩
  · have hl : s.package ∈ (a.roster.setInstalled s.package false).lineup.candidates := by
      simpa [Roster.lineup] using hp
    obtain ⟨e, he, -⟩ := Roster.endpoint_of_active hs'
    have hr : Recached id a.service (Service.packageChanged (ports b)
        (a.roster.setInstalled s.package false).lineup ⟨s.package, true⟩ a.service).2 := by
      rw [Service.packageChanged_of_other hl hs' hne]
      exact recached_bindTo_of_unbound (e := e) (by simp [Roster.lineup, hs', he]) hu
    simp only [caches, world, effect]
    rw [packageEvent_of_installs hf rfl hp]
    exact hr.2.trans (List.map_id _)
  · have hss : some s' = some s := hs'.symm.trans (he.trans hs)
    rw [Option.some.inj hss]

/-- A record that a cache has just taken in was brought by the scorer in charge, who stays so. -/
theorem active_of_accepted (h : Accepted a x k n) :
    ∃ s, a.roster.active = some s ∧ (step b a x).roster.active = some s := by
  obtain ⟨networks, m, hb, -⟩ := h
  obtain ⟨q, hx, hq⟩ := Option.bind_eq_some_iff.mp hb
  rw [step_of_request hx]
  cases q with
  | scoresUpdate u =>
    cases hs : a.roster.active with
    | none => simp [brought, lineup, Roster.lineup, Lineup.isActive, hs] at hq
    | some s => exact ⟨s, rfl, hs⟩
  | _ => contradiction

theorem fresh_step (hf : (run b a xs).Following) (ht : Tended (run b a xs).service)
    (h : Fresh b a xs)
    (hl : Lapse (run b a xs) x → ∀ m ∈ (run b a xs).caches, m.scores = []) :
    Fresh b a (xs ++ [x]) := by
  intro k m n hm hn
  rw [run_snoc] at hm
  rcases held_step ht hm hn with hacc | ⟨⟨m₀, hm₀, hn₀⟩, hnew⟩
  · obtain ⟨s, hs, hs'⟩ := active_of_accepted (b := b) hacc
    refine ⟨xs, x, [], s, rfl, ⟨hacc, by simp⟩, hs, ?_⟩
    intro later hlater
    obtain rfl := List.prefix_nil.mp hlater
    rwa [run_snoc]
  · obtain ⟨before, y, after, s, rfl, ho, hs, hsince⟩ := h k m₀ n hm₀ hn₀
    rcases authority_step (b := b) hf ht (hsince after List.prefix_rfl) x with hs' | hlapse | hempty
    · refine ⟨before, y, after ++ [x], s, by simp, ⟨ho.accepted, ?_⟩, hs, ?_⟩
      · intro later z rest hr
        rcases rest.eq_nil_or_concat' with rfl | ⟨rest', w, rfl⟩
        · obtain ⟨rfl, hz⟩ := List.append_inj' hr rfl
          obtain rfl := List.singleton_inj.mp hz
          exact hnew
        · have hr' : after ++ [x] = (later ++ z :: rest') ++ [w] := by simpa using hr
          exact ho.latest later z rest' (List.append_inj' hr' rfl).1
      · intro later hlater
        rcases List.prefix_concat_iff.mp hlater with rfl | hlater
        · rw [← List.cons_append, ← List.append_assoc, run_snoc]
          exact hs'
        · exact hsince later hlater
    · rw [hl hlapse m₀ (List.mem_of_getElem? hm₀)] at hn₀
      contradiction
    · rw [hempty m (List.mem_of_getElem? hm)] at hn
      contradiction

theorem empty_of_lapse (hf : (run b a xs).Following) (h : Fresh b a (xs ++ [x]))
    (hl : Lapse (run b a xs) x) : ∀ m ∈ (run b a xs).caches, m.scores = [] := by
  obtain ⟨hc, hne⟩ := lapse_step (b := b) hf hl
  intro m hm
  by_contra hn
  obtain ⟨n, hn⟩ := List.exists_mem_of_ne_nil _ hn
  obtain ⟨k, hk⟩ := List.mem_iff_getElem?.mp hm
  obtain ⟨before, y, after, s, hxs, ho, -, hsince⟩ :=
    h k m n (by rw [run_snoc, hc]; exact hk) hn
  rcases after.eq_nil_or_concat' with rfl | ⟨after', w, rfl⟩
  · obtain ⟨rfl, hy⟩ := List.append_inj' hxs rfl
    obtain rfl := List.singleton_inj.mp hy
    obtain ⟨networks, _, hb, -⟩ := ho.accepted
    obtain ⟨_, _, -, -, hx, -⟩ := hl
    rw [hx] at hb
    contradiction
  · have hxs' : xs ++ [x] = (before ++ y :: after') ++ [w] := by simpa using hxs
    obtain ⟨rfl, hw⟩ := List.append_inj' hxs' rfl
    obtain rfl := List.singleton_inj.mp hw
    have h₁ := hsince after' (List.prefix_append _ _)
    have h₂ := hsince (after' ++ [x]) List.prefix_rfl
    rw [← List.cons_append, ← List.append_assoc, run_snoc] at h₂
    exact hne (h₂.trans h₁.symm)

/-- All along a run every record held is from a scorer in charge ever since, exactly if the caches are
empty whenever the package of the scorer in charge goes away unlinked and another takes over. -/
theorem fresh_iff_lapses_empty {input : ConfigInput} {c : Config} (h : input.resolve = .ok c)
    (b : Binder σ) (name : Nat → String) (w : σ) (xs : List Input) :
    let a := started b c name w
    (∀ ys, ys <+: xs → Fresh b a ys) ↔
      ∀ ys x, ys ++ [x] <+: xs → Lapse (run b a ys) x →
        ∀ m ∈ (run b a ys).caches, m.scores = [] := by
  intro a
  have hd := ConfigInput.nodup_cacheTypes h
  have hf : ∀ ys, (run b a ys).Following := fun ys => following_run (following_started c name w) ys
  have ht : ∀ ys, Tended (run b a ys).service := fun ys => tended_run (tended_started hd name w) ys
  constructor
  · intro hfresh ys x hys
    exact empty_of_lapse (hf ys) (hfresh _ hys)
  · intro hempty ys hys
    induction ys using List.reverseRecOn with
    | nil =>
      intro k m n hm hn
      rw [scores_started hd name w m (List.mem_of_getElem? hm)] at hn
      contradiction
    | append_singleton ys x ih =>
      have hprefix := (List.prefix_append ys [x]).trans hys
      exact fresh_step (hf ys) (ht ys) (ih hprefix) (hempty ys x hys)

section Pair

/-- A line that holds a message. -/
def Input.message (type : String) (payload : Json) : Input :=
  .line (Envelope.json ⟨"1", type, ⟨⟨2024, 1, 1⟩, 0, 0, 0, 0, by decide⟩, payload⟩).text

/-- Two providers with a service each, and one cache. -/
def pairInput : ConfigInput where
  providers := [{ package := "a", service := some "S" }, { package := "b", service := some "S" }]
  caches := { networkTypes := ["wifi"] }

def pair : Config where
  providers := [⟨"a", 10000, some "S", none, true⟩, ⟨"b", 10001, some "S", none, true⟩]
  cacheTypes := [.wifi]

/-- An agent for the pair, whose binder answers as told. -/
abbrev pairAgent (mode : Scripted.BindMode) : Agent Scripted.BinderScript :=
  started Scripted.binder pair (fun _ => "cache") { mode := mode }

/-- The first provider brings a score. -/
def given : ScoresUpdate := ⟨⟨10000, []⟩, [⟨⟨.wifi, "n"⟩, 7, false⟩]⟩

def givenLine : Input := .message "scores.update" given.json

/-- The first provider goes away. -/
def removalLine : Input := .message "package.event" (PackageEvent.removed "a").json

theorem request_given : givenLine.request? = some (.scoresUpdate given) := by
  rw [givenLine, Input.message, request_line (fits_update given)]
  simp [Request.ofEnvelope, Request.ofEnvelope.read, ScoresUpdate.decode_json, Except.toOption]

theorem request_removal : removalLine.request? = some (.packageEvent (.removed "a")) := by
  rw [removalLine, Input.message, request_line (fits_event (.removed "a"))]
  simp [Request.ofEnvelope, Request.ofEnvelope.read, PackageEvent.decode_json, Except.toOption]

/-- While the binder accepts, a removal finds a link to give up. -/
theorem fresh_iff_lapses_empty_pair : pairInput.resolve = .ok pair ∧
    ∀ ys, ys <+: [givenLine, removalLine] → Fresh Scripted.binder (pairAgent .accept) ys := by
  have hp : pairInput.resolve = .ok pair := by decide +kernel
  refine ⟨hp, (fresh_iff_lapses_empty hp Scripted.binder (fun _ => "cache") { mode := .accept }
    [givenLine, removalLine]).mpr ?_⟩
  rintro ys x hys ⟨s, s', -, hu, hx, -⟩
  match ys with
  | [] =>
    obtain rfl : x = givenLine := by simpa using hys
    rw [request_given] at hx
    contradiction
  | [y] =>
    obtain ⟨rfl, -⟩ := List.cons_prefix_cons.mp hys
    rw [run_singleton, step_of_request request_given] at hu
    exact absurd hu (by decide +kernel)
  | _ :: _ :: _ => simp at hys

/-- After a refusal the scores of the provider that was removed stay behind. -/
theorem stale_after_removal : pairInput.resolve = .ok pair ∧
    ¬ Fresh Scripted.binder (pairAgent .refuse) [givenLine, removalLine] := by
  refine ⟨by decide +kernel, ?_⟩
  intro h
  have hf : (run Scripted.binder (pairAgent .refuse) [givenLine]).Following :=
    following_run (following_started _ _ _) _
  have hl : Lapse (run Scripted.binder (pairAgent .refuse) [givenLine]) removalLine := by
    rw [run_singleton, step_of_request request_given]
    exact ⟨⟨"a", 10000, some "S"⟩, ⟨"b", 10001, some "S"⟩, by decide +kernel, by decide +kernel,
      request_removal, by decide +kernel⟩
  have he := empty_of_lapse hf (show Fresh _ _ ([givenLine] ++ [removalLine]) from h) hl
  rw [run_singleton, step_of_request request_given] at he
  exact absurd he (by decide +kernel)

end Pair

end ScoreRelay.Agent
