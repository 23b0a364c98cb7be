import Mathlib.Data.List.Basic
import ScoreRelay.Proofs.Link.Heard

/-! Every bind that a binder has taken is released, once, before it is asked for another; what is left over
is what the link holds. Neither a refusal nor a crash nor a release that fails changes that. -/
namespace ScoreRelay.Link

variable {ω : Type} {b : Binder ω} {e : Endpoint} {l : Link ω} {n : Session} {v : Verdict}
  {calls : List BinderCall}

/-- Anything that can happen to a link while it is in use. -/
inductive Operation where
  | connect (endpoint : Endpoint)
  | disconnect
  | shutdown
  /-- An event is reported under the session of a bind. -/
  | notify (session : Session) (event : LinkEvent)
  /-- The worker takes up the oldest event that waits. -/
  | work

def operate (b : Binder ω) (l : Link ω) : Operation → Link ω
  | .connect e => (l.connect b e).2
  | .disconnect => (l.disconnect b).2
  | .shutdown => l.shutdown b
  | .notify n ev => (l.notify n ev).2
  | .work => l.deliver

def operateAll (b : Binder ω) (l : Link ω) (ops : List Operation) : Link ω := ops.foldl (operate b) l

/-- What every operation keeps, all of them keep. -/
theorem operateAll_keeps {P : Link ω → Prop} (hp : ∀ l op, P l → P (operate b l op)) (h : P l)
    (ops : List Operation) : P (operateAll b l ops) := by
  induction ops generalizing l with
  | nil => exact h
  | cons op ops ih => exact ih (hp l op h)

section Seen

variable {ω' : Type} {b' : Binder ω'} {f : ω → ω'}

theorem operate_seen (h : b.Through f b') (l : Link ω) (op : Operation) :
    operate b' (l.seen f) op = (operate b l op).seen f := by
  cases op with
  | connect e => simp [operate, connect_seen h]
  | disconnect => simp [operate, disconnect_seen h]
  | shutdown => exact shutdown_seen h l
  | notify n ev => simp [operate, notify_seen]
  | work => exact deliver_seen l

theorem operateAll_seen (h : b.Through f b') (l : Link ω) (ops : List Operation) :
    operateAll b' (l.seen f) ops = (operateAll b l ops).seen f := by
  induction ops generalizing l with
  | nil => rfl
  | cons op ops ih =>
    change operateAll b' (operate b' (l.seen f) op) ops = _
    rw [operate_seen h, ih]
    rfl

end Seen

section Heard

variable {k : Link (ω × List BinderNote)}

theorem heard_operate (h : k.Heard) (op : Operation) : (operate b.noting k op).Heard := by
  cases op with
  | connect e => exact heard_connect h e
  | disconnect => exact heard_disconnect h
  | shutdown => exact heard_disconnect (b := b) h
  | notify n ev => exact heard_notify h n ev
  | work => exact heard_deliver h

theorem heard_operateAll (h : k.Heard) (ops : List Operation) :
    (operateAll b.noting k ops).Heard :=
  operateAll_keeps (P := Heard) (fun _ op h => heard_operate h op) h ops

end Heard

/-- A log that leaves nothing outstanding: a bind is not taken, or it is taken and the next call
releases it. -/
inductive Balanced : List BinderCall → Prop where
  | empty : Balanced []
  | missed {done : List BinderCall} {e : Endpoint} {n : Session} {v : Verdict}
      (h : Balanced done) (hv : v ≠ .accepted) : Balanced (done ++ [.bind e n v])
  | released {done : List BinderCall} {e : Endpoint} {n : Session}
      (h : Balanced done) : Balanced (done ++ [.bind e n .accepted, .unbind e])

/-- A call that is in order while `held` is outstanding: a bind if that is nothing, and the release of
just that. -/
def Fits (held : Option (Endpoint × Session)) : BinderCall → Prop
  | .bind _ _ _ => held = none
  | .unbind e => held.map Prod.fst = some e

/-- Each call of a log is in order after those before it. -/
def Orderly (calls : List BinderCall) : Prop :=
  ∀ before c after, calls = before ++ c :: after → Fits (outstanding before) c

/-- What holds of each call after those before it goes on to hold once it holds of the next. -/
theorem throughout_snoc {P : List BinderCall → BinderCall → Prop} {c : BinderCall}
    (h : ∀ before c after, calls = before ++ c :: after → P before c) (hc : P calls c) :
    ∀ before c' after, calls ++ [c] = before ++ c' :: after → P before c' := by
  intro before c' after he
  rcases after.eq_nil_or_concat' with rfl | ⟨after', z, rfl⟩
  · obtain ⟨rfl, hz⟩ := List.append_inj' he rfl
    rwa [← List.singleton_inj.mp hz]
  · have he' : calls ++ [c] = (before ++ c' :: after') ++ [z] := by simpa using he
    exact h before c' after' (List.append_inj' he' rfl).1

theorem orderly_snoc {c : BinderCall} (h : Orderly calls) (hc : Fits (outstanding calls) c) :
    Orderly (calls ++ [c]) :=
  throughout_snoc h hc

theorem outstanding_of_balanced (h : Balanced calls) : outstanding calls = none := by
  induction h with
  | empty => rfl
  | missed _ hv ih => rw [outstanding_append_bind, if_neg hv, ih]
  | @released done e n _ _ =>
    rw [List.append_cons]
    exact outstanding_append_unbind (n := n) (by rw [outstanding_append_bind, if_pos rfl])

theorem orderly_bind (h : Balanced calls) (ho : Orderly calls) :
    Orderly (calls ++ [.bind e n v]) :=
  orderly_snoc ho (outstanding_of_balanced h)

theorem orderly_of_balanced (h : Balanced calls) : Orderly calls := by
  induction h with
  | empty => intro before c after he; simp at he
  | missed h _ ih => exact orderly_bind h ih
  | @released done e n h ih =>
    rw [List.append_cons]
    apply orderly_snoc (orderly_bind h ih)
    rw [outstanding_append_bind, if_pos rfl]
    rfl

/-- The bind that a link holds, as its log has it. -/
def pending (l : Link ω) : List BinderCall :=
  match l.state.endpoint with
  | none => []
  | some e => [.bind e l.session .accepted]

/-- The log is balanced but for the bind that is held. -/
def InCustody (l : Link ω) : Prop := ∃ done, Balanced done ∧ l.calls = done ++ l.pending

theorem pending_of_unbound (h : l.state = .unbound) : l.pending = [] := by
  simp [pending, h, LinkState.endpoint]

theorem inCustody_iff_of_unbound (h : l.state = .unbound) : l.InCustody ↔ Balanced l.calls := by
  simp [InCustody, pending_of_unbound h]

/-- What is held and the log say it all. -/
theorem inCustody_congr {l' : Link ω} (he : l'.state.endpoint = l.state.endpoint)
    (hs : l'.session = l.session) (hc : l'.calls = l.calls) (h : l.InCustody) : l'.InCustody := by
  obtain ⟨done, hd, hl⟩ := h
  exact ⟨done, hd, by rw [hc, hl, pending, pending, he, hs]⟩

theorem balanced_disconnect (h : l.InCustody) : Balanced (l.disconnect b).2.calls := by
  rcases disconnect_cases b l with ⟨hu, hd⟩ | ⟨e, hs, hd⟩ <;> rw [hd]
  · exact (inCustody_iff_of_unbound hu).mp h
  · obtain ⟨done, hdone, hl⟩ := h
    have hp : l.pending = [.bind e l.session .accepted] := by simp [pending, hs]
    simp only [hl, hp, List.append_assoc, List.singleton_append]
    exact .released hdone

theorem inCustody_disconnect (h : l.InCustody) : (l.disconnect b).2.InCustody :=
  (inCustody_iff_of_unbound disconnect_state).mpr (balanced_disconnect h)

theorem inCustody_request (hu : l.state = .unbound) (h : Balanced l.calls) :
    (request b e l).2.InCustody := by
  by_cases hv : (answer b e l).verdict = .accepted
  · refine ⟨l.calls, h, ?_⟩
    have hs : (request b e l).2.state = .binding e := by rw [request_state, if_pos hv]
    rw [request_calls, pending, hs, request_session, hv]
    rfl
  · have hs : (request b e l).2.state = .unbound := by rw [request_state, if_neg hv, hu]
    rw [inCustody_iff_of_unbound hs, request_calls]
    exact .missed h hv

theorem inCustody_connect (h : l.InCustody) : (l.connect b e).2.InCustody := by
  by_cases hs : l.state.endpoint = some e
  · rwa [connect_of_held hs]
  · rw [connect_of_not_held hs]
    exact inCustody_request disconnect_state (balanced_disconnect h)

theorem inCustody_deliver (h : l.InCustody) : l.deliver.InCustody := by
  unfold deliver
  split
  · exact h
  · split
    · exact inCustody_congr (LinkState.endpoint_after _ _) rfl rfl h
    · exact inCustody_congr rfl rfl rfl h

theorem inCustody_operate (h : l.InCustody) (op : Operation) : (operate b l op).InCustody := by
  cases op with
  | connect e => exact inCustody_connect h
  | disconnect => exact inCustody_disconnect h
  | shutdown => exact inCustody_congr rfl rfl rfl (inCustody_disconnect (b := b) h)
  | notify n ev =>
    simp only [operate, notify]
    split
    · exact inCustody_congr rfl rfl rfl h
    · exact h
  | work => exact inCustody_deliver h

theorem inCustody_operateAll (h : l.InCustody) (ops : List Operation) :
    (operateAll b l ops).InCustody :=
  operateAll_keeps (P := InCustody) (fun _ op h => inCustody_operate h op) h ops

theorem outstanding_of_inCustody (h : l.InCustody) :
    (outstanding l.calls).map Prod.fst = l.state.endpoint := by
  obtain ⟨done, hd, hl⟩ := h
  rw [hl, pending]
  cases l.state.endpoint with
  | none => simp [outstanding_of_balanced hd]
  | some e => simp [outstanding_append_bind]

theorem orderly_of_inCustody (h : l.InCustody) : Orderly l.calls := by
  obtain ⟨done, hd, hl⟩ := h
  rw [hl, pending]
  cases l.state.endpoint with
  | none => simpa using orderly_of_balanced hd
  | some e => exact orderly_bind hd (orderly_of_balanced hd)

/-- What the binder hears of a connect is said by the endpoint held before it. -/
theorem notes_connect (b : Binder ω) (e : Endpoint) (l : Link (ω × List BinderNote)) :
    match l.state.endpoint with
    | none => ∃ n answer, (l.connect b.noting e).2.world.2 = l.world.2 ++ [.bind e n answer]
    | some held =>
      if held = e then l.connect b.noting e = (.alreadyBound, l)
      else ∃ failure n answer, (l.connect b.noting e).2.world.2 =
        l.world.2 ++ [.unbind held failure, .bind e n answer] := by
  cases hs : l.state.endpoint with
  | none =>
    have hu : l.state = .unbound := by simpa using hs
    rw [connect_of_not_held (by simp [hs]), disconnect_of_unbound hu]
    exact ⟨_, _, notes_request⟩
  | some held =>
    dsimp only
    split
    · rename_i he
      exact connect_of_held (he ▸ hs)
    · rename_i he
      rw [connect_of_not_held (by simpa [hs] using he), notes_request, notes_disconnect hs]
      exact ⟨_, _, _, by rw [List.append_assoc]; rfl⟩

/-- At most one bind is held, and each is released once. Let a binder note all that it hears: a link fares with
it as without. Whatever has happened to the link and whatever the binder made of it, the requests heard are
those in the log, and each was in order after those before; they are balanced but for the bind whose endpoint
the link carries; a connect makes the requests that its endpoint calls for; and once the link goes out of use,
they are balanced. -/
theorem binds_released_once (b : Binder ω) (w : ω) (ops : List Operation) :
    let l := operateAll b.noting { world := (w, []) } ops
    operateAll b { world := w } ops = l.seen Prod.fst ∧
      l.calls = l.heard ∧
      Orderly l.heard ∧
      (outstanding l.heard).map Prod.fst = l.state.endpoint ∧
      (∃ done, Balanced done ∧ l.heard = done ++ l.pending) ∧
      (∀ e, match l.state.endpoint with
        | none => ∃ n answer, (l.connect b.noting e).2.world.2 = l.world.2 ++ [.bind e n answer]
        | some held =>
          if held = e then l.connect b.noting e = (.alreadyBound, l)
          else ∃ failure n answer, (l.connect b.noting e).2.world.2 =
            l.world.2 ++ [.unbind held failure, .bind e n answer]) ∧
      Balanced (l.drop b.noting).heard := by
  intro l
  let start : Link (ω × List BinderNote) := { world := (w, []) }
  have hstart : start.Heard := rfl
  have hh : l.Heard := heard_operateAll hstart ops
  have hc : l.InCustody := inCustody_operateAll ⟨[], .empty, rfl⟩ ops
  have hdrop : (l.drop b.noting).Heard := heard_operate hh .shutdown
  have hlog : l.calls = l.heard := hh
  rw [← hlog, ← hdrop]
  exact ⟨operateAll_seen b.through_noting start ops, rfl, orderly_of_inCustody hc,
    outstanding_of_inCustody hc, hc, fun e => notes_connect b e l, balanced_disconnect hc⟩

end ScoreRelay.Link
