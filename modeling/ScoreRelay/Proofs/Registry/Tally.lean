import Mathlib.Algebra.GroupWithZero.Nat
import ScoreRelay.Proofs.Registry.Broadcast

/-! The calls that a broadcast makes, and how it counts them. Whatever an action does with its state, and
however its calls end, every registration of every set is called once and in order, each call in the state
that the one before has left. -/
namespace ScoreRelay

variable {κ σ : Type} {act : Registration κ → σ → Delivery × σ} {reg : Registration κ}
  {regs : List (Registration κ)} {sets : List (ListenerSet κ)} {s t : σ} {tally : Tally}

/-- A call to a registered cache, and how it ended. -/
structure CacheCall (κ : Type) where
  reg : Registration κ
  outcome : Delivery

/-- The call came through. Failed and crashed calls did not. -/
def CacheCall.cameThrough (c : CacheCall κ) : Bool := c.outcome = .delivered

variable {calls : List (CacheCall κ)}

/-- Calls of an action that lead from one state to another. A failure or a crash does not end them, and the
next call finds what it left. -/
inductive Successive (act : Registration κ → σ → Delivery × σ) : σ → List (CacheCall κ) → σ → Prop where
  | none {s : σ} : Successive act s [] s
  | next {s t : σ} {reg : Registration κ} {calls : List (CacheCall κ)}
      (rest : Successive act (act reg s).2 calls t) :
      Successive act s (⟨reg, (act reg s).1⟩ :: calls) t

/-- The same action, with each of its calls noted beside its state. -/
def noting (act : Registration κ → σ → Delivery × σ) (reg : Registration κ)
    (x : σ × List (CacheCall κ)) : Delivery × (σ × List (CacheCall κ)) :=
  let (d, s) := act reg x.1
  (d, (s, x.2 ++ [⟨reg, d⟩]))

namespace Successive

theorem exists_of (act : Registration κ → σ → Delivery × σ) (regs : List (Registration κ)) (s : σ) :
    ∃ calls t, Successive act s calls t ∧ calls.map CacheCall.reg = regs := by
  induction regs generalizing s with
  | nil => exact ⟨[], s, .none, rfl⟩
  | cons reg regs ih =>
    obtain ⟨calls, t, h, rfl⟩ := ih (act reg s).2
    exact ⟨_, t, .next h, rfl⟩

theorem noting (h : Successive act s calls t) (notes : List (CacheCall κ)) :
    Successive (noting act) (s, notes) calls (t, notes ++ calls) := by
  induction h generalizing notes with
  | none =>
    rw [List.append_nil]
    exact .none
  | @next s t reg calls _ ih =>
    have hr := ih (notes ++ [⟨reg, (act reg s).1⟩])
    rw [List.append_assoc, List.singleton_append] at hr
    exact .next hr

end Successive

/-- The counts with those of some calls added. -/
def Tally.plus (tally : Tally) (calls : List (CacheCall κ)) : Tally :=
  ⟨tally.delivered + calls.countP (·.cameThrough), tally.failed + calls.countP (!·.cameThrough)⟩

theorem Tally.plus_cons (c : CacheCall κ) :
    tally.plus (c :: calls) = (tally.count c.outcome).plus calls := by
  obtain ⟨reg, outcome⟩ := c
  cases outcome <;> simp [plus, count, CacheCall.cameThrough] <;> omega

theorem Tally.total_plus : (tally.plus calls).total = tally.total + calls.length := by
  have hlen := List.length_eq_countP_add_countP (fun c : CacheCall κ => c.cameThrough) (l := calls)
  simp only [plus, total]
  simp only [Bool.not_eq_true, Bool.decide_eq_false] at hlen
  omega

theorem broadcastSet_append (regs regs' : List (Registration κ)) (tally : Tally) (s : σ) :
    broadcastSet act (regs ++ regs') tally s =
      broadcastSet act regs' (broadcastSet act regs tally s).1 (broadcastSet act regs tally s).2 := by
  induction regs generalizing tally s with
  | nil => rfl
  | cons reg regs ih => exact ih _ _

/-- Sets after one another are one long set. -/
theorem broadcast_eq_broadcastSet (sets : List (ListenerSet κ)) (s : σ) : broadcast act sets s =
    broadcastSet act (sets.flatMap ListenerSet.registrations) {} s := by
  unfold broadcast
  generalize ({} : Tally) = tally
  induction sets generalizing tally s with
  | nil => rfl
  | cons set sets ih =>
    rw [List.flatMap_cons, broadcastSet_append]
    exact ih _ _

theorem broadcastSet_of_successive (h : Successive act s calls t) (tally : Tally) :
    broadcastSet act (calls.map CacheCall.reg) tally s = (tally.plus calls, t) := by
  induction h generalizing tally with
  | none => rfl
  | next _ ih =>
    rw [Tally.plus_cons]
    exact ih _

theorem broadcast_of_successive (h : Successive act s calls t)
    (hc : calls.map CacheCall.reg = sets.flatMap ListenerSet.registrations) :
    broadcast act sets s = (({} : Tally).plus calls, t) := by
  rw [broadcast_eq_broadcastSet, ← hc, broadcastSet_of_successive h]

/-- A broadcast calls every registration of its sets once, set by set and in order, whatever becomes of the
calls, and noting the calls shows that it makes no others. What it leaves is what these calls leave one after
the other. It counts those that came through and those that did not, together as many as the sets have
registrations. -/
theorem broadcast_calls_each_once (act : Registration κ → σ → Delivery × σ)
    (sets : List (ListenerSet κ)) (s : σ) : ∃ calls t, Successive act s calls t ∧
      calls.map CacheCall.reg = sets.flatMap ListenerSet.registrations ∧
      (broadcast act sets s).2 = t ∧
      (∀ notes, (broadcast (noting act) sets (s, notes)).1 = (broadcast act sets s).1 ∧
        (broadcast (noting act) sets (s, notes)).2 = (t, notes ++ calls)) ∧
      (broadcast act sets s).1.delivered = calls.countP (fun c => c.outcome = .delivered) ∧
      (broadcast act sets s).1.failed = calls.countP (fun c => c.outcome ≠ .delivered) ∧
      (broadcast act sets s).1.total = (sets.map fun set => set.registrations.length).sum := by
  obtain ⟨calls, t, h, hc⟩ := Successive.exists_of act (sets.flatMap ListenerSet.registrations) s
  have hb := broadcast_of_successive h hc
  have hn (notes : List (CacheCall κ)) := broadcast_of_successive (h.noting notes) hc
  refine ⟨calls, t, h, hc, by rw [hb], fun notes => by rw [hn, hb]; exact ⟨rfl, rfl⟩, ?_, ?_, ?_⟩
  · rw [hb]
    simp [Tally.plus, CacheCall.cameThrough]
  · rw [hb]
    simp [Tally.plus, CacheCall.cameThrough]
  · have hlen : calls.length = (sets.map fun set => set.registrations.length).sum := by
      rw [← List.length_map (f := CacheCall.reg), hc, List.length_flatMap]
    rw [hb, Tally.total_plus, hlen]
    exact Nat.zero_add _

end ScoreRelay
