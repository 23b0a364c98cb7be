import Mathlib.Data.List.Basic
import ScoreRelay.Proofs.Link.Custody
import ScoreRelay.Tcp

/-! A link and the table of bindings below it keep the same account: the table has an entry for what the
link holds and for nothing else, so no release misses its entry and no binding is left running. -/
namespace ScoreRelay.Tcp

namespace Table

variable {t : Table} {e : Endpoint} {n : Nat} {package : String} {c : Config}

theorem bind_of_vacant (h : t.active = []) : t.bind e =
    if (t.addresses.lookup e.package).isSome then
      (.accepted, { t with active := [(e, t.next)], next := t.next + 1 })
    else (.refused ("no service address configured for " ++ e.package), t) := by
  simp [bind, h, without]

theorem unbind_of_held (h : t.active = [(e, n)]) :
    t.unbind e = (none, { t with active := [], cancelled := t.cancelled ++ [n] }) := by
  simp [unbind, h, without]

/-- A package has an address exactly if one is configured for it. -/
theorem address_of_config : ((ofConfig c).addresses.lookup package).isSome = false ↔
    ∀ p ∈ c.providers, p.package = package → p.serviceAddr = none := by
  rw [Option.isSome_eq_false_iff, Option.isNone_iff_eq_none, List.lookup_eq_none_iff]
  constructor
  · intro h p hp hpk
    cases ha : p.serviceAddr with
    | none => rfl
    | some a =>
      have hm : (p.package, a) ∈ (ofConfig c).addresses :=
        List.mem_filterMap.mpr ⟨p, hp, by simp [ha]⟩
      have hne := h _ hm
      simp [hpk] at hne
  · intro h entry hentry
    obtain ⟨p, hp, he⟩ := List.mem_filterMap.mp hentry
    obtain ⟨a, ha, rfl⟩ := Option.map_eq_some_iff.mp he
    by_cases hpk : p.package = package
    · rw [h p hp hpk] at ha
      contradiction
    · simpa using Ne.symm hpk

/-- The table once a call has been made of it. -/
def after (t : Table) : BinderCall → Table
  | .bind e _ _ => (t.bind e).2
  | .unbind e => (t.unbind e).2

/-- The table once all calls of a log have been made of it. -/
def replay (t : Table) (calls : List BinderCall) : Table := calls.foldl after t

theorem replay_snoc (calls : List BinderCall) (call : BinderCall) :
    t.replay (calls ++ [call]) = (t.replay calls).after call := by
  simp [replay]

/-- A call that a table is in the right state for. A bind finds no entry, so that it displaces none and
stops nothing, and what is accepted gets a number of its own. A release finds the entry of its endpoint and
no other, and stops just that binding. -/
def Apt (t : Table) : BinderCall → Prop
  | .bind e _ v => t.active = [] ∧ v = (t.bind e).1 ∧ (t.bind e).2.cancelled = t.cancelled ∧
      (v = .accepted → (t.bind e).2.active = [(e, t.next)] ∧ (t.bind e).2.next = t.next + 1)
  | .unbind e => ∃ n, t.active = [(e, n)] ∧ (t.unbind e).1 = none ∧
      (t.unbind e).2.active = [] ∧ (t.unbind e).2.cancelled = t.cancelled ++ [n]

theorem apt_bind (h : t.active = []) (s : Session) : t.Apt (.bind e s (t.bind e).1) := by
  refine ⟨h, rfl, ?_, ?_⟩
  · rw [bind_of_vacant h]
    split <;> rfl
  · rw [bind_of_vacant h]
    split
    · exact fun _ => ⟨rfl, rfl⟩
    · nofun

theorem apt_unbind (h : t.active = [(e, n)]) : t.Apt (.unbind e) := by
  refine ⟨n, h, ?_, ?_, ?_⟩ <;> rw [unbind_of_held h]

end Table

open Table Link

variable {t : Table} {l : Link Table} {e : Endpoint}

/-- How many binds of a log were accepted. -/
def accepted (calls : List BinderCall) : Nat :=
  calls.countP fun
    | .bind _ _ .accepted => true
    | _ => false

/-- The table is what the calls have made of it, each of them apt in its place. What is in it is what the
link holds, and every binding begun is either there or has been stopped, once. -/
structure Agrees (t : Table) (l : Link Table) : Prop where
  replayed : l.world = t.replay l.calls
  apt : ∀ before call after, l.calls = before ++ call :: after → (t.replay before).Apt call
  held : l.world.active.map Prod.fst = l.state.endpoint.toList
  numbered : l.world.cancelled ++ l.world.active.map Prod.snd = List.range l.world.next
  counted : l.world.next = accepted l.calls
  addresses : l.world.addresses = t.addresses

theorem agrees_start (c : Config) : Agrees (ofConfig c) { world := ofConfig c } where
  replayed := rfl
  apt := by simp
  held := rfl
  numbered := rfl
  counted := rfl
  addresses := rfl

/-- World, log and endpoint are all that counts. -/
theorem agrees_congr {l' : Link Table} (h : Agrees t l) (hw : l'.world = l.world)
    (hc : l'.calls = l.calls) (he : l'.state.endpoint = l.state.endpoint) : Agrees t l' where
  replayed := by rw [hw, hc, h.replayed]
  apt := by rw [hc]; exact h.apt
  held := by rw [hw, he, h.held]
  numbered := by rw [hw, h.numbered]
  counted := by rw [hw, hc, h.counted]
  addresses := by rw [hw, h.addresses]

theorem active_of_unbound (h : Agrees t l) (hu : l.state = .unbound) : l.world.active = [] := by
  simpa [hu, LinkState.endpoint] using h.held

theorem active_of_bound (h : Agrees t l) (hs : l.state.endpoint = some e) :
    ∃ n, l.world.active = [(e, n)] := by
  have hh := h.held
  rw [hs, Option.toList_some, List.map_eq_singleton_iff] at hh
  obtain ⟨⟨e', n⟩, ha, rfl⟩ := hh
  exact ⟨n, ha⟩

theorem isBound_iff (h : Agrees t l) (e : Endpoint) :
    l.world.isBound e = true ↔ l.state.endpoint = some e := by
  rw [isBound]
  cases hs : l.state.endpoint with
  | none =>
    rw [active_of_unbound h (by simpa using hs)]
    simp
  | some held =>
    obtain ⟨n, ha⟩ := active_of_bound h hs
    rw [ha, List.lookup_cons]
    by_cases he : e = held
    · simp [he]
    · simp [beq_false_of_ne he, Ne.symm he]

theorem agrees_disconnect (h : Agrees t l) : Agrees t (l.disconnect binder).2 := by
  rcases disconnect_cases binder l with ⟨-, hd⟩ | ⟨e, hs, hd⟩ <;> rw [hd]
  · exact h
  · obtain ⟨n, ha⟩ := active_of_bound h hs
    have hn := h.numbered
    have hw : (binder.unbind e l.world).2 =
        { l.world with active := [], cancelled := l.world.cancelled ++ [n] } := by
      rw [show binder.unbind e l.world = l.world.unbind e from rfl, unbind_of_held ha]
    refine ⟨?_, throughout_snoc h.apt (h.replayed ▸ apt_unbind ha), ?_, ?_, ?_, ?_⟩
    · rw [replay_snoc, ← h.replayed]
      rfl
    · rw [hw]
      rfl
    · rw [hw]
      simpa [ha] using hn
    · rw [hw]
      simpa [accepted] using h.counted
    · rw [hw]
      exact h.addresses

/-- The table's own answer is what the log has. -/
theorem verdict_eq (e : Endpoint) (l : Link Table) :
    (answer binder e l).verdict = (l.world.bind e).1 := rfl

theorem world_request (e : Endpoint) (l : Link Table) :
    (request binder e l).2.world = (l.world.bind e).2 := by
  rw [request_world]
  rfl

theorem agrees_request (hu : l.state = .unbound) (h : Agrees t l) :
    Agrees t (request binder e l).2 := by
  have ha := active_of_unbound h hu
  have hn := h.numbered
  rw [ha, List.map_nil, List.append_nil] at hn
  have hb := bind_of_vacant (e := e) ha
  refine ⟨?_, ?_, ?_, ?_, ?_, ?_⟩
  · rw [world_request, request_calls, replay_snoc, ← h.replayed]
    rfl
  · rw [request_calls, verdict_eq]
    exact throughout_snoc h.apt (h.replayed ▸ apt_bind ha _)
  · rw [world_request, request_state, verdict_eq, hb, hu]
    split
    · rfl
    · simp [ha, LinkState.endpoint]
  · rw [world_request, hb]
    split
    · simp [hn, List.range_succ]
    · simp [ha, hn]
  · rw [world_request, request_calls, verdict_eq, hb]
    split
    · simpa [accepted] using h.counted
    · simpa [accepted] using h.counted
  · rw [world_request, hb]
    split
    · exact h.addresses
    · exact h.addresses

theorem agrees_connect (h : Agrees t l) : Agrees t (l.connect binder e).2 := by
  by_cases hs : l.state.endpoint = some e
  · rwa [connect_of_held hs]
  · rw [connect_of_not_held hs]
    exact agrees_request disconnect_state (agrees_disconnect h)

theorem agrees_deliver (h : Agrees t l) : Agrees t l.deliver := by
  unfold deliver
  split
  · exact h
  · split
    · exact agrees_congr h rfl rfl (LinkState.endpoint_after _ _)
    · exact agrees_congr h rfl rfl rfl

theorem agrees_operate (h : Agrees t l) (op : Operation) : Agrees t (operate binder l op) := by
  cases op with
  | connect e => exact agrees_connect h
  | disconnect => exact agrees_disconnect h
  | shutdown => exact agrees_congr (agrees_disconnect h) rfl rfl rfl
  | notify n ev =>
    simp only [operate, notify]
    split
    · exact agrees_congr h rfl rfl rfl
    · exact h
  | work => exact agrees_deliver h

theorem agrees_operateAll (h : Agrees t l) (ops : List Operation) :
    Agrees t (operateAll binder l ops) :=
  operateAll_keeps (P := Agrees t) (fun _ op h => agrees_operate h op) h ops

/-- A connect fails exactly if it would need an address that there is none for, and then nothing is held any
more. It never crashes. -/
theorem connect_failed {c : Config} (h : Agrees (ofConfig c) l) (e : Endpoint) :
    ((∃ reason, (l.connect binder e).1 = .failed reason) ↔ l.state.endpoint ≠ some e ∧
      ∀ p ∈ c.providers, p.package = e.package → p.serviceAddr = none) ∧
    (∀ reason, (l.connect binder e).1 = .failed reason →
      (l.connect binder e).2.state = .unbound ∧ (l.connect binder e).2.world.active = []) ∧
    (l.connect binder e).1 ≠ .crashed := by
  by_cases hs : l.state.endpoint = some e
  · simp [connect_of_held hs, hs]
  · have hd := agrees_disconnect h
    have hu : (l.disconnect binder).2.state = .unbound := disconnect_state
    have ha := active_of_unbound hd hu
    rw [← address_of_config, ← hd.addresses]
    rw [connect_of_not_held hs, world_request, request_state, request_eq, verdict_eq,
      bind_of_vacant ha, hu]
    cases (((l.disconnect binder).2.world.addresses.lookup e.package).isSome) with
    | true => simp
    | false => simp [hs, ha]

/-- The table and the link agree. Whatever has been asked of a link over the table of a configuration: the
table is what the calls of the link have made of it, and no call missed an entry or displaced one; it has
an entry for the endpoint that the link carries and no other; the bindings begun, one for each bind that was
accepted, have each been stopped once or are the one that is held; and a connect fails only for want of an
address, leaving nothing behind. -/
theorem table_follows_link (c : Config) (ops : List Operation) :
    let t := ofConfig c
    let l := operateAll binder ({ world := t } : Link Table) ops
    l.world = t.replay l.calls ∧
    (∀ before call after, l.calls = before ++ call :: after → (t.replay before).Apt call) ∧
    (∀ e, l.world.isBound e = true ↔ l.state.endpoint = some e) ∧
    l.world.active.map Prod.fst = l.state.endpoint.toList ∧
    l.world.next = accepted l.calls ∧
    l.world.cancelled ++ l.world.active.map Prod.snd = List.range l.world.next ∧
    ∀ e,
      ((∃ reason, (l.connect binder e).1 = .failed reason) ↔ l.state.endpoint ≠ some e ∧
        ∀ p ∈ c.providers, p.package = e.package → p.serviceAddr = none) ∧
      (∀ reason, (l.connect binder e).1 = .failed reason →
        (l.connect binder e).2.state = .unbound ∧ (l.connect binder e).2.world.active = []) ∧
      (l.connect binder e).1 ≠ .crashed := by
  intro t l
  have h : Agrees t l := agrees_operateAll (agrees_start c) ops
  exact ⟨h.replayed, h.apt, isBound_iff h, h.held, h.counted, h.numbered, connect_failed h⟩

end ScoreRelay.Tcp
