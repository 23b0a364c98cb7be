import ScoreRelay.Proofs.Monitor.Calls

/-! What is watched follows from what was registered and cleared so far, be it from outside or by targets while
they are called. An event goes by what is watched when it comes, whatever its own calls change about that. -/
namespace ScoreRelay

/-- A change to what is watched. -/
inductive Change (τ : Type) where
  | packages (packages : List String) (target : τ)
  | observer (target : τ)
  | clear

/-- What happens at the monitors: something is changed about them, or a target is called. -/
inductive MonitorAct (τ : Type) where
  | change (c : Change τ)
  | package (target : τ) (t : Trigger)
  | setting (target : τ)

/-- An act, with the monitors in force when it begins. -/
structure Moment (τ : Type) where
  act : MonitorAct τ
  seen : Monitors τ

/-- Monitors in the course of time: those in force, the world their targets live in, and all moments so far. -/
structure Watch (τ ω : Type) where
  monitors : Monitors τ := {}
  world : ω
  past : List (Moment τ) := []

/-- What a target does when it is called: it changes what is watched, and its world, and may crash in the end. -/
structure Reaction (τ ω : Type) where
  changes : List (Change τ)
  world : ω
  ending : Outcome Unit

/-- Targets of monitors. What they do may depend on everything there is when they are called. -/
structure Targets (τ ω : Type) where
  alive : τ → ω → Bool
  onPackage : τ → Trigger → Monitors τ → ω → Reaction τ ω
  onSetting : τ → Monitors τ → ω → Reaction τ ω

/-- What happens from outside. Elsewhere anything may happen to the targets. -/
inductive Happening (τ ω : Type) where
  | change (c : Change τ)
  | event (e : PackageEvent)
  | setting
  | elsewhere (passes : ω → ω)

variable {τ ω : Type}

namespace Change

/-- The package monitor that a change brings, or none if it takes it away. -/
def packages? : Change τ → Option (Option (PackageMonitor τ))
  | .packages ps target => some (if ps = [] then none else some ⟨ps, target⟩)
  | .observer _ => none
  | .clear => some none

def observer? : Change τ → Option τ
  | .observer target => some target
  | .packages _ _ | .clear => none

def isClear : Change τ → Bool
  | .clear => true
  | .packages _ _ | .observer _ => false

/-- What was changed after everything was cleared for the last time. -/
def sinceClear (cs : List (Change τ)) : List (Change τ) :=
  (cs.reverse.takeWhile fun c => !c.isClear).reverse

theorem sinceClear_snoc (cs : List (Change τ)) (c : Change τ) :
    sinceClear (cs ++ [c]) = if c.isClear then [] else sinceClear cs ++ [c] := by
  cases h : c.isClear <;> simp [sinceClear, h]

end Change

namespace Moment

def change? (m : Moment τ) : Option (Change τ) :=
  match m.act with
  | .change c => some c
  | .package _ _ | .setting _ => none

def call? (m : Moment τ) : Option (τ × Trigger) :=
  match m.act with
  | .package target t => some (target, t)
  | .change _ | .setting _ => none

/-- The changes among some moments. -/
def changes (ms : List (Moment τ)) : List (Change τ) := ms.filterMap change?

/-- The calls because of packages among some moments. -/
def calls (ms : List (Moment τ)) : List (τ × Trigger) := ms.filterMap call?

end Moment

attribute [ext] Monitors

namespace Monitors

def change (m : Monitors τ) : Change τ → Monitors τ
  | .packages ps target => (m.registerPackages ps target).2
  | .observer target => (m.registerObserver target).2
  | .clear => m.clear

/-- The monitors in force after some changes: for packages the one registered last, unless it was to watch nothing
or all was cleared after it; for the setting the observer registered first since all was cleared. -/
def inForce (cs : List (Change τ)) : Monitors τ where
  packages := (cs.filterMap Change.packages?).getLast?.join
  observer := (Change.sinceClear cs).findSome? Change.observer?

theorem packages_inForce_snoc (cs : List (Change τ)) (c : Change τ) :
    (inForce (cs ++ [c])).packages = (c.packages?).getD (inForce cs).packages := by
  cases h : c.packages? <;> simp [inForce, h]

theorem observer_inForce_snoc (cs : List (Change τ)) (c : Change τ) :
    (inForce (cs ++ [c])).observer =
      if c.isClear then none else (inForce cs).observer.or c.observer? := by
  cases h : c.isClear <;> simp [inForce, Change.sinceClear_snoc, h]

/-- A change makes of the monitors in force what the history with it says. -/
theorem inForce_snoc (cs : List (Change τ)) (c : Change τ) :
    inForce (cs ++ [c]) = (inForce cs).change c := by
  apply Monitors.ext
  · rw [packages_inForce_snoc]
    cases c with
    | packages ps target =>
      by_cases hp : ps = [] <;> simp [change, registerPackages, Change.packages?, hp]
    | observer target =>
      cases h : (inForce cs).observer <;> simp [change, registerObserver, Change.packages?, h]
    | clear => rfl
  · rw [observer_inForce_snoc]
    cases c with
    | packages ps target =>
      by_cases hp : ps = [] <;>
        simp [change, registerPackages, Change.isClear, Change.observer?, hp]
    | observer target =>
      cases h : (inForce cs).observer <;>
        simp [change, registerObserver, Change.isClear, Change.observer?, h]
    | clear => rfl

end Monitors

namespace Watch

variable {p : Watch τ ω} {T : Targets τ ω} {target : τ}

/-- An act begins. -/
def note (p : Watch τ ω) (a : MonitorAct τ) : Watch τ ω :=
  { p with past := p.past ++ [⟨a, p.monitors⟩] }

def change (p : Watch τ ω) (c : Change τ) : Watch τ ω :=
  { p.note (.change c) with monitors := p.monitors.change c }

def react (p : Watch τ ω) (a : MonitorAct τ) (r : Reaction τ ω) : Outcome Unit × Watch τ ω :=
  (r.ending, r.changes.foldl change { p.note a with world := r.world })

end Watch

namespace Targets

/-- No call because of a package ends in a crash. -/
def Steady (T : Targets τ ω) : Prop := ∀ target t m w, (T.onPackage target t m w).ending = .done ()

def tell (T : Targets τ ω) (target : τ) (t : Trigger) (p : Watch τ ω) : Outcome Unit × Watch τ ω :=
  p.react (.package target t) (T.onPackage target t p.monitors p.world)

def tellSetting (T : Targets τ ω) (target : τ) (p : Watch τ ω) : Outcome Unit × Watch τ ω :=
  p.react (.setting target) (T.onSetting target p.monitors p.world)

/-- Hand an event to the monitors in force. -/
def dispatchEvent (T : Targets τ ω) (e : PackageEvent) (p : Watch τ ω) : Outcome Nat × Watch τ ω :=
  p.monitors.dispatchEvent (fun target p => T.alive target p.world) T.tell e p

/-- Hand a change of the setting to the monitors in force. -/
def dispatchSetting (T : Targets τ ω) (p : Watch τ ω) : Outcome Bool × Watch τ ω :=
  p.monitors.dispatchSetting (fun target p => T.alive target p.world) T.tellSetting p

def happen (T : Targets τ ω) (p : Watch τ ω) : Happening τ ω → Watch τ ω
  | .change c => p.change c
  | .event e => (T.dispatchEvent e p).2
  | .setting => (T.dispatchSetting p).2
  | .elsewhere passes => { p with world := passes p.world }

/-- One thing happens after the other. -/
def run (T : Targets τ ω) (p : Watch τ ω) (hs : List (Happening τ ω)) : Watch τ ω :=
  hs.foldl T.happen p

end Targets

namespace Watch

variable {p : Watch τ ω} {T : Targets τ ω} {target : τ} {t : Trigger}

/-- The monitors in force, now and at the beginning of every act, are those that the changes before have left. -/
structure Sound (p : Watch τ ω) : Prop where
  now : p.monitors = Monitors.inForce (Moment.changes p.past)
  before : ∀ k m, p.past[k]? = some m → m.seen = Monitors.inForce (Moment.changes (p.past.take k))

theorem sound_start (w : ω) : Sound ({ world := w } : Watch τ ω) where
  now := rfl
  before k m hm := by simp at hm

theorem sound_world (h : Sound p) (w : ω) : Sound { p with world := w } := ⟨h.now, h.before⟩

/-- An act that is noted has begun with the monitors in force. -/
theorem before_note (h : Sound p) (a : MonitorAct τ) (k : Nat) (m : Moment τ)
    (hm : (p.note a).past[k]? = some m) :
    m.seen = Monitors.inForce (Moment.changes ((p.note a).past.take k)) := by
  simp only [note] at hm ⊢
  rcases Nat.lt_or_ge k p.past.length with hk | hk
  · rw [List.getElem?_append_left hk] at hm
    rw [List.take_append_of_le_length (Nat.le_of_lt hk)]
    exact h.before k m hm
  · rw [List.getElem?_append_right hk, List.getElem?_singleton] at hm
    split at hm
    · rename_i hz
      obtain rfl := Option.some.inj hm
      obtain rfl : k = p.past.length := by omega
      rw [List.take_left]
      exact h.now
    · cases hm

theorem sound_change (h : Sound p) (c : Change τ) : Sound (p.change c) where
  now := by
    have hc : Moment.changes (p.change c).past = Moment.changes p.past ++ [c] := by
      simp [change, note, Moment.changes, Moment.change?]
    rw [hc, Monitors.inForce_snoc, ← h.now]
    rfl
  before := before_note h (.change c)

theorem sound_changes (h : Sound p) (cs : List (Change τ)) : Sound (cs.foldl change p) := by
  induction cs generalizing p with
  | nil => exact h
  | cons c cs ih => exact ih (sound_change h c)

/-- A call as such changes nothing. -/
theorem sound_react (h : Sound p) {a : MonitorAct τ} (ha : ∀ c, a ≠ .change c) (r : Reaction τ ω) :
    Sound (p.react a r).2 := by
  refine sound_changes (p := { p.note a with world := r.world }) ⟨?_, before_note h a⟩ r.changes
  have hc : Moment.changes (p.note a).past = Moment.changes p.past := by
    cases a with
    | change c => exact absurd rfl (ha c)
    | package target t => simp [note, Moment.changes, Moment.change?]
    | setting target => simp [note, Moment.changes, Moment.change?]
  exact h.now.trans (congrArg Monitors.inForce hc.symm)

theorem sound_dispatchEvent (h : Sound p) (e : PackageEvent) : Sound (T.dispatchEvent e p).2 := by
  unfold Targets.dispatchEvent Monitors.dispatchEvent PackageMonitor.handle
  split
  · split
    · exact callAll_keeps (P := Sound) (fun t _ q hq => sound_react hq (by simp) _) 0 h
    · exact h
  · exact h

theorem sound_dispatchSetting (h : Sound p) : Sound (T.dispatchSetting p).2 := by
  unfold Targets.dispatchSetting Monitors.dispatchSetting observe
  split
  · rename_i target _
    have hr : Sound (T.tellSetting target p).2 := sound_react h (by simp) _
    split
    · split <;> rename_i heq <;> rwa [heq] at hr
    · exact h
  · exact h

theorem sound_happen (h : Sound p) (x : Happening τ ω) : Sound (T.happen p x) := by
  cases x with
  | change c => exact sound_change h c
  | event e => exact sound_dispatchEvent h e
  | setting => exact sound_dispatchSetting h
  | elsewhere passes => exact sound_world h _

theorem sound_run (h : Sound p) (xs : List (Happening τ ω)) : Sound (T.run p xs) := by
  induction xs generalizing p with
  | nil => exact h
  | cons x xs ih => exact ih (sound_happen h x)

/-- Changes are no calls. -/
theorem calls_changes (cs : List (Change τ)) :
    Moment.calls (cs.foldl change p).past = Moment.calls p.past := by
  induction cs generalizing p with
  | nil => rfl
  | cons c cs ih =>
    rw [List.foldl_cons, ih]
    simp [change, note, Moment.calls, Moment.call?]

theorem calls_tell (t : Trigger) (p : Watch τ ω) :
    Moment.calls (T.tell target t p).2.past = Moment.calls p.past ++ [(target, t)] := by
  simp only [Targets.tell, react, calls_changes]
  simp [note, Moment.calls, Moment.call?]

end Watch

namespace Targets

variable {p : Watch τ ω} {T : Targets τ ω} {m : PackageMonitor τ} {e : PackageEvent}

/-- With nothing watched, or nobody there to be told, nothing happens. -/
theorem dispatchEvent_of_nobody
    (h : ∀ m, p.monitors.packages = some m → T.alive m.target p.world = false) :
    T.dispatchEvent e p = (.done 0, p) := by
  unfold dispatchEvent Monitors.dispatchEvent PackageMonitor.handle
  split
  · rename_i m hm
    simp only [h m hm, Bool.false_eq_true, if_false]
  · rfl

theorem dispatchEvent_of_watched (hm : p.monitors.packages = some m)
    (ha : T.alive m.target p.world = true) :
    T.dispatchEvent e p = PackageMonitor.callAll (T.tell m.target)
      (e.triggers.filter fun t => t.package ∈ m.packages) 0 p := by
  have hr : m.relevant e = e.triggers.filter fun t => t.package ∈ m.packages := by
    simp [PackageMonitor.relevant, PackageMonitor.watches]
  simp only [dispatchEvent, Monitors.dispatchEvent, hm, PackageMonitor.handle, ha, if_true, hr]

/-- Whatever happens at the monitors, and whatever their targets make of it, the monitors in force, now and at
the beginning of every act, are those that the registrations and clears before have left. An event calls the
target watching when it comes, for just those of its triggers that are watched then, in order, and the answer is
their number; but if a target can crash, it may end with one of these calls. With nothing watched or nobody there
it calls nobody. -/
theorem events_follow_history (T : Targets τ ω) (w : ω) (xs : List (Happening τ ω)) :
    let p := T.run { world := w } xs
    let now := Monitors.inForce (Moment.changes p.past)
    p.monitors = now ∧
      (∀ k m, p.past[k]? = some m →
        m.seen = Monitors.inForce (Moment.changes (p.past.take k))) ∧
      (∀ e, (∀ m, now.packages = some m → T.alive m.target p.world = false) →
        T.dispatchEvent e p = (.done 0, p)) ∧
      ∀ e m, now.packages = some m → T.alive m.target p.world = true →
        let due := e.triggers.filter fun t => t.package ∈ m.packages
        (∃ q, T.dispatchEvent e p = (.done due.length, q) ∧
            Moment.calls q.past = Moment.calls p.past ++ due.map (m.target, ·)) ∨
          ¬ T.Steady ∧ ∃ made left q, due = made ++ left ∧ made ≠ [] ∧
            T.dispatchEvent e p = (.crashed, q) ∧
            Moment.calls q.past = Moment.calls p.past ++ made.map (m.target, ·) := by
  intro p now
  have hs : p.Sound := Watch.sound_run (Watch.sound_start w) xs
  have hnow : p.monitors = now := hs.now
  refine ⟨hnow, hs.before, fun e h => dispatchEvent_of_nobody fun m hm => h m (hnow ▸ hm), ?_⟩
  · intro e m hm ha due
    have hd := dispatchEvent_of_watched (e := e) (hnow ▸ hm) ha
    rcases callAll_entries (fun q => Moment.calls q.past) Watch.calls_tell due 0 p with
      ⟨q, hq, hc⟩ | ⟨made, left, q, hl, hne, hq, hc⟩
    · rw [Nat.zero_add] at hq
      exact Or.inl ⟨q, hd.trans hq, hc⟩
    · refine Or.inr ⟨fun hst => ?_, made, left, q, hl, hne, hd.trans hq, hc⟩
      have hdone : ∀ t q, (T.tell m.target t q).1 = .done () := fun _ _ => hst _ _ _ _
      obtain ⟨n, hn⟩ := callAll_done hdone due 0 p
      rw [hq] at hn
      cases hn

section Fickle

/-- Whoever is called has another package watched from then on. -/
def fickle : Targets Unit Unit where
  alive _ _ := true
  onPackage target _ _ _ := ⟨[.packages ["z"] target], (), .done ()⟩
  onSetting _ _ _ := ⟨[], (), .done ()⟩

/-- It is told of the rest of the event all the same, and only after that of the other package alone. -/
example : Moment.calls (fickle.run { world := () } [.change (.packages ["a", "b"] ()),
    .event (.forceStopped ["b", "c", "a", "b"] true), .event (.modified "a"),
    .event (.modified "z")]).past =
      [((), ⟨"b", true⟩), ((), ⟨"a", true⟩), ((), ⟨"b", true⟩), ((), ⟨"z", false⟩)] := by decide

end Fickle

end Targets

end ScoreRelay
