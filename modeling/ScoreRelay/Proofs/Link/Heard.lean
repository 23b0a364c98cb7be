import ScoreRelay.Proofs.Link.Calls

/-! Links of whose world only a view is seen, and binders that note what they hear. A binder that notes answers
as it would without, so whatever its notes say of a link is so for the link without them. -/
namespace ScoreRelay

variable {ω ω' : Type} {b : Binder ω} {b' : Binder ω'} {f : ω → ω'} {e : Endpoint} {n : Session}

/-- The second binder answers as the first one does, and changes what is seen of its world as that one changes
the world. -/
structure Binder.Through (f : ω → ω') (b : Binder ω) (b' : Binder ω') : Prop where
  bind : ∀ e n w, b'.bind e n (f w) = Prod.map id f (b.bind e n w)
  unbind : ∀ e w, b'.unbind e (f w) = Prod.map id f (b.unbind e w)

/-- A binder within a larger world is seen in its own part as what it is. -/
theorem Binder.through_within {part : ω → ω'} {replace : ω → ω' → ω}
    (h : ∀ w x, part (replace w x) = x) : (b'.within part replace).Through part b' where
  bind e n w := by simp [Binder.within, h]
  unbind e w := by simp [Binder.within, h]

namespace Link

/-- A link with what is seen of its world. -/
def seen (f : ω → ω') (l : Link ω) : Link ω' := { l with world := f l.world }

section Through

variable (h : b.Through f b') (l : Link ω)
include h

theorem disconnect_seen : (l.seen f).disconnect b' = Prod.map id (seen f) (l.disconnect b) := by
  cases hs : l.state.endpoint with
  | none =>
    have hu : l.state = .unbound := by simpa using hs
    rw [disconnect_of_unbound hu, disconnect_of_unbound (l := l.seen f) hu]
    rfl
  | some e =>
    rw [disconnect_of_bound hs, disconnect_of_bound (l := l.seen f) hs]
    have hw : (b'.unbind e (f l.world)).2 = f (b.unbind e l.world).2 := by rw [h.unbind]; rfl
    simp only [seen, hw, Prod.map, id_eq]

theorem request_seen (e : Endpoint) :
    request b' e (l.seen f) = Prod.map id (seen f) (request b e l) := by
  have hb := h.bind e (l.session + 1) l.world
  have ha : answer b' e (l.seen f) = answer b e l := congrArg Prod.fst hb
  have hw : (b'.bind e (l.session + 1) (f l.world)).2 = f (b.bind e (l.session + 1) l.world).2 :=
    congrArg Prod.snd hb
  rw [request_eq, request_eq, ha]
  simp only [seen, hw, Prod.map, id_eq]
  rfl

theorem connect_seen (e : Endpoint) :
    (l.seen f).connect b' e = Prod.map id (seen f) (l.connect b e) := by
  by_cases hs : l.state.endpoint = some e
  · rw [connect_of_held hs, connect_of_held (l := l.seen f) hs]
    rfl
  · rw [connect_of_not_held hs, connect_of_not_held (l := l.seen f) hs, disconnect_seen h,
      ← request_seen h]
    rfl

theorem shutdown_seen : (l.seen f).shutdown b' = (l.shutdown b).seen f := by
  rw [shutdown, disconnect_seen h]
  rfl

end Through

theorem notify_seen (l : Link ω) (n : Session) (ev : LinkEvent) :
    (l.seen f).notify n ev = Prod.map id (seen f) (l.notify n ev) := by
  have hr : (l.seen f).running = l.running := rfl
  unfold notify
  rw [hr]
  split <;> rfl

theorem deliver_seen (l : Link ω) : (l.seen f).deliver = l.deliver.seen f := by
  unfold deliver
  cases hq : l.queue with
  | nil => simp [seen, hq]
  | cons r rest =>
    simp only [seen, hq]
    split <;> rfl

end Link

/-- A request that a binder has heard, with what it answered. -/
inductive BinderNote where
  | bind (endpoint : Endpoint) (session : Session) (answer : BindAnswer)
  | unbind (endpoint : Endpoint) (failure : Option String)
  deriving DecidableEq

namespace BinderNote

/-- The request that a note is about. -/
def call : BinderNote → BinderCall
  | .bind e n answer => .bind e n answer.verdict
  | .unbind e _ => .unbind e

/-- The events that were reported while the request was carried out. -/
def early : BinderNote → List (Session × LinkEvent)
  | .bind _ _ answer => answer.early
  | .unbind _ _ => []

end BinderNote

/-- The same binder, which notes all that it hears, oldest first. -/
def Binder.noting (b : Binder ω) : Binder (ω × List BinderNote) where
  bind e n w :=
    let (answer, world) := b.bind e n w.1
    (answer, world, w.2 ++ [.bind e n answer])
  unbind e w :=
    let (failure, world) := b.unbind e w.1
    (failure, world, w.2 ++ [.unbind e failure])
  early_le e n w := b.early_le e n w.1

theorem Binder.through_noting (b : Binder ω) : b.noting.Through Prod.fst b where
  bind _ _ _ := rfl
  unbind _ _ := rfl

namespace Link

variable {l : Link (ω × List BinderNote)}

/-- All requests that the binder has heard so far, oldest first. -/
def heard (l : Link (ω × List BinderNote)) : List BinderCall := l.world.2.map BinderNote.call

/-- The log of a link is what the binder has heard. -/
def Heard (l : Link (ω × List BinderNote)) : Prop := l.calls = l.heard

theorem notes_disconnect (hs : l.state.endpoint = some e) :
    (l.disconnect b.noting).2.world.2 = l.world.2 ++ [.unbind e (b.unbind e l.world.1).1] := by
  rw [disconnect_of_bound hs]
  rfl

theorem notes_request : (request b.noting e l).2.world.2 =
    l.world.2 ++ [.bind e (l.session + 1) (b.bind e (l.session + 1) l.world.1).1] := by
  rw [request_world]
  rfl

theorem heard_disconnect (h : l.Heard) : (l.disconnect b.noting).2.Heard := by
  cases hs : l.state.endpoint with
  | none => rwa [disconnect_of_unbound (by simpa using hs)]
  | some e =>
    rw [Heard, heard, notes_disconnect hs, disconnect_of_bound hs, h, heard, List.map_append]
    rfl

theorem heard_request (h : l.Heard) (e : Endpoint) : (request b.noting e l).2.Heard := by
  rw [Heard, heard, notes_request, request_calls, h, heard, List.map_append]
  rfl

theorem heard_connect (h : l.Heard) (e : Endpoint) : (l.connect b.noting e).2.Heard := by
  by_cases hs : l.state.endpoint = some e
  · rwa [connect_of_held hs]
  · rw [connect_of_not_held hs]
    exact heard_request (heard_disconnect h) e

theorem heard_notify (h : l.Heard) (n : Session) (ev : LinkEvent) : (l.notify n ev).2.Heard := by
  unfold notify
  split <;> exact h

theorem heard_deliver (h : l.Heard) : l.deliver.Heard := by
  unfold deliver
  split
  · exact h
  · split <;> exact h

end Link

end ScoreRelay
