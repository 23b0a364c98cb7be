import ScoreRelay.Proofs.Agent.Run
import ScoreRelay.Proofs.Service.Seen

/-! What an agent does to its binder, apart from its caches, and agents of whose binder only a view is seen. -/
namespace ScoreRelay

/-- What requests keep of a link, and reports of any kind too. -/
structure Link.Lasting {σ : Type} (b : Binder σ) (P : Link σ → Prop) : Prop where
  disconnect : ∀ k, P k → P (k.disconnect b).2
  request : ∀ k e, P k → P (Link.request b e k).2
  reported : ∀ k state queue, P k → P { k with state := state, queue := queue }

/-- The log only grows. -/
theorem Link.lasting_extends {σ : Type} (b : Binder σ) (calls : List BinderCall) :
    Link.Lasting b fun k => calls <+: k.calls where
  disconnect _ h := h.trans prefix_disconnect
  request _ _ h := h.trans prefix_request
  reported _ _ _ h := h

/-- The log of a link goes on with what a binder that notes has heard. -/
theorem Link.lasting_heard {σ : Type} (b : Binder σ) : Link.Lasting b.noting Link.Heard where
  disconnect _ h := heard_disconnect h
  request _ e h := heard_request h e
  reported _ _ _ h := h

namespace Agent

variable {σ : Type} {b : Binder σ} {a : Agent σ} {s : Service Nat (World σ)}

/-- The link of an agent, in the binder's own part of the world. -/
def link (a : Agent σ) : Link σ := a.service.link.seen World.binder

theorem through_binder (b : Binder σ) : (ports b).binder.Through World.binder b := by
  have hb : (ports b).binder = b.within World.binder fun w binder => { w with binder := binder } :=
    rfl
  rw [hb]
  exact Binder.through_within fun _ _ => rfl

/-- A cache that is updated leaves the binder alone. -/
theorem memoryPort_update_binder (reg : Registration Nat) (batch : List ScoredNetwork)
    (x : Registry Nat × World σ) : (memoryPort.update reg batch x).2.2.binder = x.2.binder := by
  simp only [memoryPort]
  split <;> rfl

section Lasting

variable {P : Link σ → Prop} (hp : Link.Lasting b P)
include hp

theorem stable_of_lasting : Service.Stable (ports b) fun k => P (k.seen World.binder) where
  update k reg batch r h := by
    simpa only [ports, Link.seen, memoryPort_update_binder] using h
  clear _ _ _ h := h
  disconnect k h := by
    have hd := congrArg Prod.snd (Link.disconnect_seen (through_binder b) k)
    rw [Prod.map_snd] at hd
    exact hd ▸ hp.disconnect _ h
  request k e h := by
    have hr := congrArg Prod.snd (Link.request_seen (through_binder b) k e)
    rw [Prod.map_snd] at hr
    exact hr ▸ hp.request _ e h

theorem lasting_effect (h : P (s.link.seen World.binder)) (q : Request) (l : Lineup) :
    P ((effect b q l s).link.seen World.binder) := by
  have hs := stable_of_lasting hp
  cases q with
  | packageEvent e => exact hs.packageEvent h e
  | settingChanged c => exact hs.settingEvent h
  | userUnlocked u => exact hs.bindTo h
  | scoresUpdate u =>
    simp only [effect]
    split
    · exact hs.updateScores _ h
    · exact h
  | scoresClear c =>
    simp only [effect]
    split
    · exact hs.clearScores h
    · exact h
  | _ => exact h

theorem lasting_step (h : P a.link) (x : Input) : P (step b a x).link := by
  cases hx : x.request? with
  | some q =>
    rw [step_of_request hx]
    exact lasting_effect hp h q _
  | none =>
    obtain ⟨state, queue, -, hs⟩ := step_of_no_request (b := b) (a := a) hx
    rw [hs]
    exact hp.reported _ state queue h

theorem lasting_run (h : P a.link) (xs : List Input) : P (run b a xs).link :=
  run_keeps (P := fun a => P a.link) (fun _ x h => lasting_step hp h x) h xs

theorem lasting_started {w : σ} (h : P { world := w }) (c : Config) (name : Nat → String) :
    P (started b c name w).link := by
  have hready : P (((fresh c name w).service.systemReady (fresh c name w).lineup).link.seen
      World.binder) := by rwa [Service.systemReady_link]
  exact (stable_of_lasting hp).bindTo hready

end Lasting

section Seen

variable {σ' : Type} {f : σ → σ'} {b' : Binder σ'}

/-- A world with what is seen of the binder's part. -/
def World.seen (f : σ → σ') (w : World σ) : World σ' := ⟨f w.binder, w.caches⟩

/-- An agent with what is seen of its binder's part of the world. -/
def seen (f : σ → σ') (a : Agent σ) : Agent σ' := { a with service := a.service.seen (World.seen f) }

variable (h : b.Through f b')
include h

theorem through_ports : (ports b).Through (World.seen f) (ports b') where
  binder :=
    { bind e n w := by simp [ports, Binder.within, World.seen, h.bind]
      unbind e w := by simp [ports, Binder.within, World.seen, h.unbind] }
  update reg batch x := by
    simp only [ports, memoryPort, World.seen, Prod.map]
    split <;> rfl
  clear _ _ := rfl

theorem effect_seen (q : Request) (l : Lineup) (s : Service Nat (World σ)) :
    effect b' q l (s.seen (World.seen f)) = (effect b q l s).seen (World.seen f) := by
  have hp := through_ports h
  cases q with
  | packageEvent e => exact congrArg Prod.snd (Service.packageEvent_seen hp e s)
  | settingChanged c => exact Service.settingEvent_seen hp s
  | userUnlocked u =>
    exact congrArg Prod.snd (Service.bindTo_seen hp
      { s with monitors := (s.monitors.registerPackages l.candidates ()).2 })
  | scoresUpdate u =>
    simp only [effect]
    split
    · exact Service.updateScores_seen hp s
    · rfl
  | scoresClear c =>
    simp only [effect]
    split
    · exact Service.clearScores_seen hp s
    · rfl
  | _ => rfl

theorem step_seen (a : Agent σ) (x : Input) : step b' (a.seen f) x = (step b a x).seen f := by
  cases hx : x.request? with
  | some q =>
    rw [step_of_request hx, step_of_request hx]
    simp only [seen, effect_seen h]
  | none =>
    cases x with
    | line text => rw [step_of_no_message hx, step_of_no_message hx]
    | report n ev =>
      simp only [step, notify, seen, Service.notify_seen]
      rfl
    | work =>
      simp only [step, seen, Service.seen, Link.deliver_seen]

theorem run_seen (a : Agent σ) (xs : List Input) : run b' (a.seen f) xs = (run b a xs).seen f := by
  induction xs generalizing a with
  | nil => rfl
  | cons x xs ih => exact (congrArg (run b' · xs) (step_seen h a x)).trans (ih _)

theorem started_seen (c : Config) (name : Nat → String) (w : σ) :
    started b' c name (f w) = (started b c name w).seen f := by
  have hs : (fresh c name (f w)).service = (fresh c name w).service.seen (World.seen f) := rfl
  have hl : (fresh c name (f w)).lineup = (fresh c name w).lineup := rfl
  simp only [started, start, hs, hl, Service.systemReady_seen, Service.systemRunning,
    Service.evaluate, Service.bindTo_seen (through_ports h)]
  rfl

end Seen

end Agent

end ScoreRelay
