import ScoreRelay.Proofs.Link.Heard
import ScoreRelay.Proofs.Service.Evaluation

/-! Services of whose world only a view is seen. Where ports do in the view what other ports do in the world, a
service with the ones is seen to do what it does with the others. -/
namespace ScoreRelay

variable {κ ω ω' : Type} {f : ω → ω'} {p : Ports κ ω} {p' : Ports κ ω'}

/-- The second ports answer as the first ones do, and change what is seen of their world as those change the
world. -/
structure Ports.Through (f : ω → ω') (p : Ports κ ω) (p' : Ports κ ω') : Prop where
  binder : p.binder.Through f p'.binder
  update : ∀ reg batch x, p'.caches.update reg batch (Prod.map id f x) =
    Prod.map id (Prod.map id f) (p.caches.update reg batch x)
  clear : ∀ reg x, p'.caches.clear reg (Prod.map id f x) =
    Prod.map id (Prod.map id f) (p.caches.clear reg x)

/-- A view of the state under which each call is a call of another kind turns the whole broadcast into one of
that kind. -/
theorem broadcast_view {σ τ : Type} {act : Registration κ → σ → Delivery × σ}
    {act' : Registration κ → τ → Delivery × τ} {f : σ → τ}
    (h : ∀ reg s, act' reg (f s) = Prod.map id f (act reg s)) (sets : List (ListenerSet κ)) (s : σ) :
    (broadcast act' sets (f s)).2 = f (broadcast act sets s).2 := by
  rw [broadcast_state, broadcast_state]
  generalize sets.flatMap ListenerSet.registrations = regs
  induction regs generalizing s with
  | nil => rfl
  | cons reg regs ih =>
    rw [List.foldl_cons, List.foldl_cons, h]
    exact ih _

namespace Service

variable {s : Service κ ω} {scorer : Option Scorer} {l : Lineup} {e : Endpoint}
  {networks : List ScoredNetwork}

/-- A service with what is seen of its world. -/
def seen (f : ω → ω') (s : Service κ ω) : Service κ ω' := { s with link := s.link.seen f }

theorem tell_seen {act : Registration κ → Registry κ × ω → Delivery × (Registry κ × ω)}
    {act' : Registration κ → Registry κ × ω' → Delivery × (Registry κ × ω')}
    (h : ∀ reg x, act' reg (Prod.map id f x) = Prod.map id (Prod.map id f) (act reg x))
    (sets : List (ListenerSet κ)) (s : Service κ ω) :
    (s.seen f).tell sets act' = (s.tell sets act).seen f := by
  have hb : (broadcast act' sets (s.registry, f s.link.world)).2 = _ :=
    broadcast_view h sets (s.registry, s.link.world)
  have hr := congrArg Prod.fst hb
  have hw := congrArg Prod.snd hb
  simp only [Prod.map_fst, Prod.map_snd, id_eq] at hr hw
  simp only [tell, seen, Link.seen, hr, hw]

section Through

variable (h : p.Through f p')
include h

theorem clearScores_seen (s : Service κ ω) :
    (s.seen f).clearScores p' = (s.clearScores p).seen f :=
  tell_seen h.clear _ s

theorem updateType_seen (s : Service κ ω) (t : NetworkType) :
    updateType p' networks (s.seen f) t = (updateType p networks s t).seen f := by
  have hr : (s.seen f).registry = s.registry := rfl
  unfold updateType
  rw [hr]
  split
  · rfl
  · cases s.registry.snapshot t with
    | none => rfl
    | some set => exact tell_seen (fun reg => h.update reg (batch networks t)) [set] s

theorem updateScores_seen (s : Service κ ω) :
    (s.seen f).updateScores p' networks = (s.updateScores p networks).seen f := by
  unfold updateScores
  generalize NetworkType.all = types
  induction types generalizing s with
  | nil => rfl
  | cons t types ih => rw [List.foldl_cons, List.foldl_cons, updateType_seen h, ih]

theorem release_seen (s : Service κ ω) : release p' (s.seen f) = (release p s).seen f := by
  have hd := congrArg Prod.snd (Link.disconnect_seen h.binder s.link)
  have hs : ({ s.seen f with link := ((s.seen f).link.disconnect p'.binder).2 } : Service κ ω') =
      ({ s with link := (s.link.disconnect p.binder).2 } : Service κ ω).seen f := by
    simp only [seen, hd]
    rfl
  rw [release, hs, clearScores_seen h]
  rfl

theorem bindTo_unbound_seen (he : scorer.bind Scorer.endpoint = some e)
    (hs : s.link.state = .unbound) :
    bindTo p' scorer (s.seen f) = Prod.map id (seen f) (bindTo p scorer s) := by
  rw [bindTo_of_unbound he hs, bindTo_of_unbound (s := s.seen f) he hs]
  simp only [seen, Link.request_seen h.binder]
  rfl

theorem bindTo_seen (s : Service κ ω) :
    bindTo p' scorer (s.seen f) = Prod.map id (seen f) (bindTo p scorer s) := by
  cases he : scorer.bind Scorer.endpoint with
  | none =>
    rw [bindTo_of_none he, bindTo_of_none he, release_seen h]
    rfl
  | some e =>
    cases hs : s.link.state.endpoint with
    | none => exact bindTo_unbound_seen h he (by simpa using hs)
    | some held =>
      by_cases hne : held = e
      · subst hne
        rw [bindTo_of_held he hs, bindTo_of_held (s := s.seen f) he hs]
        rfl
      · rw [bindTo_of_other he hs hne, bindTo_of_other (s := s.seen f) he hs hne, release_seen h,
          bindTo_unbound_seen h he release_state]

theorem packageChanged_seen (t : Trigger) (s : Service κ ω) :
    packageChanged p' l t (s.seen f) = Prod.map id (seen f) (packageChanged p l t s) := by
  unfold packageChanged
  split
  · split
    · rw [release_seen h]
      rfl
    · rw [← bindTo_seen h]
      split
      · rw [release_seen h]
      · rfl
  · rfl

theorem packageEvent_seen (ev : PackageEvent) (s : Service κ ω) :
    packageEvent p' l ev (s.seen f) = Prod.map id (seen f) (packageEvent p l ev s) := by
  cases hm : s.monitors.packages with
  | none =>
    rw [packageEvent_of_unwatched hm, packageEvent_of_unwatched (s := s.seen f) hm]
    rfl
  | some m =>
    rw [packageEvent_of_watched hm, packageEvent_of_watched (s := s.seen f) hm]
    exact callAll_view (packageChanged_seen h) _ 0 s

theorem settingEvent_seen (s : Service κ ω) :
    (settingEvent p' l (s.seen f)).2 = (settingEvent p l s).2.seen f := by
  have hm : (s.seen f).monitors = s.monitors := rfl
  rw [settingEvent_eq, settingEvent_eq, hm]
  split
  · exact congrArg Prod.snd (bindTo_seen h s)
  · rfl

theorem shutdown_seen (s : Service κ ω) : (s.seen f).shutdown p' = (s.shutdown p).seen f := by
  unfold shutdown
  simp only [seen, Link.shutdown_seen h.binder]

end Through

theorem systemReady_seen (f : ω → ω') (s : Service κ ω) :
    (s.seen f).systemReady l = (s.systemReady l).seen f := by
  unfold systemReady
  split <;> rfl

theorem notify_seen (f : ω → ω') (n : Session) (ev : LinkEvent) (s : Service κ ω) :
    (s.seen f).notify n ev = Prod.map id (seen f) (s.notify n ev) := by
  simp only [notify, seen, Link.notify_seen]
  rfl

end Service

end ScoreRelay
