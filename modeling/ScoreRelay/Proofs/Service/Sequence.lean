import Mathlib.Data.List.Basic
import ScoreRelay.Proofs.Registry.Reached
import ScoreRelay.Proofs.Roster.Active
import ScoreRelay.Proofs.Service.Noted
import ScoreRelay.Scripted.Cache

/-! What one evaluation calls, and in which order: the link held is released, then every cache is cleared, then
the endpoint wanted is asked for, each at most once and none without need. -/
namespace ScoreRelay.Service

variable {κ ω : Type} {p : Ports κ ω} {s : Service κ ω} {k : Service κ (Noted κ ω)} {l : Lineup} {r : Roster}
  {t : Trigger} {e : Endpoint} {scorer : Option Scorer}

/-- What leads to one evaluation. -/
inductive Occasion where
  | systemRunning
  | settingChanged
  | userUnlocked
  | packageChanged (t : Trigger)

namespace Occasion

/-- Packages that are no candidates do not matter. -/
def Concerns (r : Roster) : Occasion → Prop
  | .packageChanged t => t.package ∈ r.candidates
  | .systemRunning | .settingChanged | .userUnlocked => True

/-- The code of the scorer in charge is new, gone or replaced. -/
def Renews (r : Roster) : Occasion → Prop
  | .packageChanged t => t.force = true ∧ r.active.map Scorer.package = some t.package
  | .systemRunning | .settingChanged | .userUnlocked => False

instance (r : Roster) (o : Occasion) : Decidable (o.Renews r) :=
  match o with
  | .packageChanged t =>
    inferInstanceAs (Decidable (t.force = true ∧ r.active.map Scorer.package = some t.package))
  | .systemRunning | .settingChanged | .userUnlocked => inferInstanceAs (Decidable False)

end Occasion

/-- The evaluation that an occasion leads to. -/
def attend (p : Ports κ ω) (l : Lineup) : Occasion → Service κ ω → Outcome Unit × Service κ ω
  | .systemRunning, s => s.systemRunning p l
  | .settingChanged, s => s.evaluate p l
  | .userUnlocked, s => s.userUnlocked p l
  | .packageChanged t, s => s.packageChanged p l t

/-- The calls that an evaluation takes. What is held is given up, and all scores with it, unless it is what is
wanted and has not been renewed; if nothing is held and something is wanted there is nothing to give up. What
is wanted is asked for unless it was kept. -/
def due (regs : List (Registration κ)) (held wanted : Option Endpoint) (renewed : Prop)
    [Decidable renewed] : List (PortCall κ) :=
  (if wanted = none ∨ renewed ∨ held.isSome ∧ held ≠ wanted then
    held.toList.map .unbind ++ regs.map .clear
  else []) ++
  if held ≠ wanted ∨ renewed then wanted.toList.map .bind else []

/-- An occasion as it reaches the service: an unlocked user has the candidates watched anew. -/
def prepared (l : Lineup) : Occasion → Service κ ω → Service κ ω
  | .userUnlocked, s => { s with monitors := (s.monitors.registerPackages l.candidates ()).2 }
  | .systemRunning, s | .settingChanged, s | .packageChanged _, s => s

theorem prepared_link (o : Occasion) : (prepared l o s).link = s.link := by cases o <;> rfl

theorem prepared_registry (o : Occasion) : (prepared l o s).registry = s.registry := by
  cases o <;> rfl

/-- Every occasion is one evaluation, for which the scorer in charge is released first if it was renewed. -/
theorem attend_eq {o : Occasion} (h : o.Concerns r) : attend p r.lineup o s =
    bindTo p r.active
      (if o.Renews r then release p (prepared r.lineup o s) else prepared r.lineup o s) := by
  cases o with
  | systemRunning => rfl
  | settingChanged => rfl
  | userUnlocked => rfl
  | packageChanged t =>
    have hc : r.lineup.candidates.contains t.package = true := List.contains_iff_mem.mpr h
    have hl : r.lineup.active = r.active := rfl
    simp only [attend, packageChanged, hc, if_true, hl, prepared]
    cases ha : r.active with
    | none =>
      have hn : ¬ (Occasion.packageChanged t).Renews r := by simp [Occasion.Renews, ha]
      rw [if_neg hn, bindTo_of_none rfl]
    | some scorer =>
      have hn : (Occasion.packageChanged t).Renews r ↔
          (t.force && scorer.package == t.package) = true := by simp [Occasion.Renews, ha]
      simp only [hn]

/-- Without a renewal the evaluation takes what is due. -/
theorem bindTo_notes : (bindTo p.noted scorer k).2.notes =
    k.notes ++ due k.registry.listed k.link.state.endpoint (scorer.bind Scorer.endpoint) False := by
  rcases bindTo_cases p.noted scorer k with
    ⟨he, hb⟩ | ⟨e, he, hs, hb⟩ | ⟨e, he, hu, hb⟩ | ⟨e, held, he, hs, hne, hb⟩ <;> rw [hb, he]
  · rw [release_notes]
    simp [due]
  · rw [hs]
    simp [due]
  · have hn : k.link.state.endpoint = none := by simpa using hu
    rw [hn, notes, Link.request_notes]
    simp [due, notes]
  · have hd : (release p.noted k).notes =
        k.notes ++ ([.unbind held] ++ k.registry.listed.map .clear) := by
      rw [release_notes, hs]
      rfl
    rw [hs, notes, Link.request_notes]
    change (release p.noted k).notes ++ [.bind e] = _
    rw [hd]
    simp [due, hne]

/-- With a renewal nothing is held any more when the scorer in charge is asked for. -/
theorem bindTo_release_notes (h : scorer.bind Scorer.endpoint = some e) :
    (bindTo p.noted scorer (release p.noted k)).2.notes =
      k.notes ++ due k.registry.listed k.link.state.endpoint (some e) True := by
  rw [bindTo_of_unbound h release_state, notes, Link.request_notes]
  change (release p.noted k).notes ++ [.bind e] = _
  rw [release_notes]
  simp [due]

theorem attend_notes {o : Occasion} (h : o.Concerns r) : (attend p.noted r.lineup o k).2.notes =
    k.notes ++ due k.registry.listed k.link.state.endpoint r.lineup.endpoint (o.Renews r) := by
  have hl := prepared_link (l := r.lineup) (s := k) o
  have hr := prepared_registry (l := r.lineup) (s := k) o
  have hnotes : (prepared r.lineup o k).notes = k.notes := by rw [notes, hl, notes]
  rw [attend_eq h]
  by_cases hn : o.Renews r
  · obtain ⟨scorer, ha⟩ : ∃ scorer, r.active = some scorer := by
      cases o with
      | packageChanged t => exact (Option.map_eq_some_iff.mp hn.2).imp fun _ h => h.1
      | _ => exact absurd hn id
    obtain ⟨e, he, -⟩ := Roster.endpoint_of_active ha
    have hw : r.active.bind Scorer.endpoint = some e := by rw [ha, Option.bind_some, he]
    have hwant : r.lineup.endpoint = some e := hw
    rw [if_pos hn, bindTo_release_notes hw, hr, hnotes, hl, hwant]
    simp [due, hn]
  · rw [if_neg hn, bindTo_notes, hr, hnotes, hl]
    simp only [due, hn]
    rfl

/-- The endpoint was asked for from the link, and the binder's answer decides over the state. Of the answers
only a crash reaches whoever wanted the endpoint. -/
def Decided (b : Binder ω) (e : Endpoint) (l : Link ω) (outcome : Outcome Unit) (after : Link ω) :
    Prop :=
  let answer := (b.bind e (l.session + 1) l.world).1
  after.calls.getLast? = some (.bind e (l.session + 1) answer.verdict) ∧
    after.state = (if answer.verdict = .accepted then .binding e else .unbound) ∧
    outcome = if answer.verdict = .crashed then .crashed else .done ()

theorem decided_of_unbound (h : scorer.bind Scorer.endpoint = some e)
    (hs : s.link.state = .unbound) :
    Decided p.binder e s.link (bindTo p scorer s).1 (bindTo p scorer s).2.link := by
  rw [bindTo_of_unbound h hs]
  refine ⟨by simp [Link.answer], by simp [Link.request_state, Link.answer, hs], ?_⟩
  rw [Link.request_eq, Link.answer]
  cases (p.binder.bind e (s.link.session + 1) s.link.world).1.verdict <;> rfl

/-- An endpoint that is not held is asked for once the way is free. -/
theorem bindTo_decided (h : scorer.bind Scorer.endpoint = some e)
    (hs : s.link.state.endpoint ≠ some e) :
    Decided p.binder e (if s.link.state.endpoint.isSome then release p s else s).link
      (bindTo p scorer s).1 (bindTo p scorer s).2.link := by
  cases hheld : s.link.state.endpoint with
  | none => exact decided_of_unbound h (by simpa using hheld)
  | some held =>
    have hne : held ≠ e := fun he => hs (by rw [hheld, he])
    rw [bindTo_of_other h hheld hne]
    exact decided_of_unbound h release_state

theorem attend_plain {o : Occasion} :
    attend p l o k.plain = bared (attend p.noted l o k) := by
  cases o with
  | systemRunning => exact bindTo_seen p.through_noted k
  | settingChanged => exact bindTo_seen p.through_noted k
  | userUnlocked => exact bindTo_seen p.through_noted (prepared l .userUnlocked k)
  | packageChanged t => exact packageChanged_seen p.through_noted t k

/-- What is held stays as it is if it is wanted and has not been renewed. -/
theorem attend_of_kept {o : Occasion} (ho : o.Concerns r) (hn : ¬ o.Renews r)
    (he : r.lineup.endpoint = some e) (hs : s.link.state.endpoint = some e) :
    attend p r.lineup o s = (.done (), prepared r.lineup o s) := by
  rw [attend_eq ho, if_neg hn]
  exact bindTo_of_held he (by rwa [prepared_link])

/-- With nothing wanted nothing is held in the end. -/
theorem attend_of_unwanted {o : Occasion} (ho : o.Concerns r) (he : r.lineup.endpoint = none) :
    (attend p r.lineup o s).1 = .done () ∧ (attend p r.lineup o s).2.link.state = .unbound := by
  have hw : r.active.bind Scorer.endpoint = none := he
  rw [attend_eq ho, bindTo_of_none hw]
  exact ⟨rfl, release_state⟩

theorem attend_decided {o : Occasion} (ho : o.Concerns r) (he : r.lineup.endpoint = some e)
    (hs : s.link.state.endpoint ≠ some e ∨ o.Renews r) :
    Decided p.binder e
      (if o.Renews r ∨ s.link.state.endpoint.isSome then release p s else s).link
      (attend p r.lineup o s).1 (attend p r.lineup o s).2.link := by
  have hw : r.active.bind Scorer.endpoint = some e := he
  have hlink := prepared_link (l := r.lineup) (s := s) o
  have hrelease : (release p (prepared r.lineup o s)).link = (release p s).link := by
    cases o <;> rfl
  rw [attend_eq ho, apply_ite Service.link]
  by_cases hn : o.Renews r
  · rw [if_pos (Or.inl hn), if_pos hn, ← hrelease]
    exact decided_of_unbound hw release_state
  · have hd := bindTo_decided (p := p) (s := prepared r.lineup o s) hw
      (by rw [hlink]; exact hs.resolve_right hn)
    rw [apply_ite Service.link, hrelease, hlink] at hd
    simpa only [hn, if_false, false_or] using hd

/-- One evaluation, whatever is registered, held and in charge, and whatever the binder and the caches answer.
Its calls are those that are due, in that order, and no registration is among those called twice. Where
nothing is due the link stays as it is, also connected. Else the link is unbound in the end, or binds to the
endpoint wanted if the binder takes the request, which it hears last and in the world that a release has
left if there was one; only a crash of the binder goes through to whoever caused the evaluation. All of
this is so without the notes, too. -/
theorem evaluation_acts_once (p : Ports κ ω) (r : Roster) (o : Occasion) (s : Service κ (Noted κ ω))
    (ho : o.Concerns r) :
    let held := s.link.state.endpoint
    let wanted := r.lineup.endpoint
    let after := attend p.noted r.lineup o s
    after.2.notes = s.notes ++ due s.registry.listed held wanted (o.Renews r) ∧
      (s.registry.Reached → (s.registry.listed.map Registration.key).Nodup) ∧
      (∀ e, wanted = some e → held = some e → ¬ o.Renews r →
        after.1 = .done () ∧ after.2.link = s.link ∧ after.2.registry = s.registry) ∧
      (wanted = none → after.1 = .done () ∧ after.2.link.state = .unbound) ∧
      (∀ e, wanted = some e → held ≠ some e ∨ o.Renews r →
        Decided p.binder e
          (if o.Renews r ∨ held.isSome then release p s.plain else s.plain).link
          after.1 after.2.plain.link) ∧
      attend p r.lineup o s.plain = bared after := by
  intro held wanted after
  refine ⟨attend_notes ho, Registry.nodup_of_reached, ?_, attend_of_unwanted ho, ?_, attend_plain⟩
  · intro e he hs hn
    have hk : after = (.done (), prepared r.lineup o s) := attend_of_kept ho hn he hs
    rw [hk]
    exact ⟨rfl, prepared_link o, prepared_registry o⟩
  · intro e he hs
    have hd := attend_decided (p := p) (s := s.plain) ho he hs
    rw [attend_plain] at hd
    exact hd

/-- A cache that crashes when it is cleared. -/
def fragile : Registration Scripted.CacheScript :=
  ⟨.wifi, "c", .none, .mk "c" .ok .crash .ok "" false [] []⟩

def single : Roster := ⟨[⟨"a", 10000, some "S", none, true⟩], true⟩

/-- Connected to the one provider there is, with one cache registered. -/
def linked : Service Scripted.CacheScript (Noted Scripted.CacheScript Scripted.World) where
  registry := (({} : Registry Scripted.CacheScript).register fragile).2
  link := { state := .connected ⟨"a", "S"⟩, world := { world := { binder := { mode := .refuse } } } }

/-- An update of the provider in charge: the old link goes, then the scores, and only then the new link is
asked for, which is refused here, so that nothing is held. -/
theorem evaluation_acts_once_renewed : (Occasion.packageChanged ⟨"a", true⟩).Concerns single ∧
    (linked.registry.listed.map Registration.key).Nodup ∧
    (attend Scripted.ports.noted single.lineup (.packageChanged ⟨"a", true⟩) linked).2.notes =
      [.unbind ⟨"a", "S"⟩, .clear fragile, .bind ⟨"a", "S"⟩] ∧
    (attend Scripted.ports.noted single.lineup (.packageChanged ⟨"a", true⟩) linked).2.link.state =
      .unbound := by
  have hr : linked.registry.Reached := ⟨[.register fragile], rfl⟩
  have ho : (Occasion.packageChanged ⟨"a", true⟩).Concerns single := by
    simp [Occasion.Concerns, single, Roster.candidates]
  have hrenewed : (Occasion.packageChanged ⟨"a", true⟩).Renews single := by decide
  obtain ⟨hnotes, honce, -, -, hdecided, -⟩ :=
    evaluation_acts_once Scripted.ports single _ linked ho
  refine ⟨ho, honce hr, hnotes.trans ?_, (hdecided _ rfl (Or.inr hrenewed)).2.1⟩
  have hwanted : single.lineup.endpoint = some ⟨"a", "S"⟩ := rfl
  have hlisted : linked.registry.listed = [fragile] := rfl
  rw [hwanted, hlisted]
  simp only [due, hrenewed]
  rfl

end ScoreRelay.Service
