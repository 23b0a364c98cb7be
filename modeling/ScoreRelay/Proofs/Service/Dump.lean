import ScoreRelay.Proofs.Registry.Broadcast
import ScoreRelay.Service.Dump

/-! The account of a service is one text, of which a sink takes as much as fits. A cache that takes no notice of
a refusal makes no difference, for a sink that has refused something takes nothing more. Of the service an
account changes nothing but what the caches change over their own. -/
namespace ScoreRelay

namespace Sink

variable {k : Sink} {as bs : List UInt8}

/-- There is room for some bytes. -/
def Fits (k : Sink) (bs : List UInt8) : Prop := ∀ n ∈ k.room, bs.length ≤ n

instance (k : Sink) (bs : List UInt8) : Decidable (k.Fits bs) :=
  inferInstanceAs (Decidable (∀ n ∈ k.room, bs.length ≤ n))

/-- The sink with as many of some bytes as there is room for. -/
def push (k : Sink) (bs : List UInt8) : Sink :=
  match k.room with
  | none => { k with taken := k.taken ++ bs }
  | some n => ⟨k.taken ++ bs.take n, some (n - bs.length)⟩

@[simp] theorem push_nil : k.push [] = k := by
  obtain ⟨taken, room⟩ := k
  cases room <;> simp [push]

@[simp] theorem fits_nil : k.Fits [] := fun _ _ => Nat.zero_le _

theorem fits_within {ts : List UInt8} {n : Nat} : (⟨ts, some n⟩ : Sink).Fits bs ↔ bs.length ≤ n := by
  simp [Fits]

theorem push_push : (k.push as).push bs = k.push (as ++ bs) := by
  cases hr : k.room with
  | none => simp [push, hr]
  | some n => simp [push, hr, List.take_append, Nat.sub_sub]

theorem fits_append : k.Fits (as ++ bs) ↔ k.Fits as ∧ (k.push as).Fits bs := by
  cases hr : k.room with
  | none => simp [Fits, push, hr]
  | some n =>
    simp only [Fits, push, hr, Option.mem_def, Option.some.injEq, forall_eq', List.length_append]
    omega

theorem room_of_not_fits (h : ¬ k.Fits as) : (k.push as).room = some 0 := by
  cases hr : k.room with
  | none => simp [Fits, hr] at h
  | some n =>
    have hn : n < as.length := by simpa [Fits, hr] using h
    simp only [push, hr, Option.some.injEq]
    omega

theorem push_of_full (h : k.room = some 0) : k.push bs = k := by
  obtain ⟨taken, room⟩ := k
  obtain rfl : room = some 0 := h
  simp [push]

theorem not_fits_of_full (h : k.room = some 0) (hb : bs ≠ []) : ¬ k.Fits bs := by
  simpa [Fits, h] using hb

theorem write_eq (k : Sink) (s : String) :
    k.write s = (decide (k.Fits (bytes s)), k.push (bytes s)) := by
  cases hr : k.room with
  | none => simp [write, Fits, push, hr]
  | some n => simp [write, Fits, push, hr]

theorem bytes_append (s t : String) : bytes (s ++ t) = bytes s ++ bytes t := by
  simp [bytes]

theorem writeAll_eq (k : Sink) (ss : List String) : k.writeAll ss =
    (decide (k.Fits (bytes (String.join ss))), k.push (bytes (String.join ss))) := by
  induction ss generalizing k with
  | nil =>
    have hn : bytes (String.join []) = [] := by simp [bytes]
    rw [hn, push_nil, decide_eq_true fits_nil, writeAll]
  | cons s ss ih =>
    rw [String.join_cons, bytes_append]
    unfold writeAll
    rw [write_eq]
    by_cases hs : k.Fits (bytes s)
    · simp only [hs, decide_true, ih, push_push, fits_append, true_and]
    · simp only [hs, decide_false, fits_append, false_and]
      rw [← push_push, push_of_full (room_of_not_fits hs)]

end Sink

namespace Service

variable {κ ω : Type} {p : CachePort κ ω} {reg : Registration κ} {regs : List (Registration κ)} {d : Dumping ω}
  {script : DumpScript} {w : ω} {l : Lineup} {k : Sink} {s : Service κ ω}

/-- What is added on a cache that failed over its own account. -/
def complaint : Delivery → String
  | .failed reason => failureLine reason
  | .delivered | .crashed => ""

/-- What an account says of a cache: who it is, all that it writes, and whether it failed then. -/
def block (reg : Registration κ) (script : DumpScript) : String :=
  cacheLine reg ++ String.join script.pieces ++ complaint script.ending

/-- A block for each registration. Each finds the world as the ones before it have left it. -/
def blocks (p : CachePort κ ω) : List (Registration κ) → ω → String
  | [], _ => ""
  | reg :: regs, w => block reg (p.dump reg w).1 ++ blocks p regs (p.dump reg w).2

/-- The whole text: the scorer in charge, the registered caches in order, the link. -/
def account (p : CachePort κ ω) (l : Lineup) (s : Service κ ω) : String :=
  scorerLine l ++ blocks p s.registry.listed s.link.world ++ s.link.report

theorem bytes_report (l : Link ω) : Sink.bytes l.report ≠ [] := by
  unfold Link.report
  split
  · have hstart : Sink.bytes "ScorerConnection: " ≠ [] := by decide
    simp [Sink.bytes_append, hstart]
  · decide

/-- The three parts that a cache adds, as far as there is room for each. -/
theorem dumpCache_eq (hs : d.stopped = false) (hp : p.dump reg d.world = (script, w)) :
    (dumpCache p reg d).2 =
      let k := d.sink.push (Sink.bytes (cacheLine reg))
      let pieces := Sink.bytes (String.join script.pieces)
      let rest := Sink.bytes (complaint (if k.Fits pieces then script.ending else script.refused))
      if d.sink.Fits (Sink.bytes (cacheLine reg)) then
        ⟨(k.push pieces).push rest, !decide ((k.push pieces).Fits rest), w⟩
      else ⟨k, true, d.world⟩ := by
  unfold dumpCache
  by_cases hline : d.sink.Fits (Sink.bytes (cacheLine reg))
  · simp only [hs, Sink.write_eq, Sink.writeAll_eq, hline, hp, decide_true, decide_eq_true_eq]
    generalize (if Sink.Fits _ _ then script.ending else script.refused) = e
    cases e <;> simp [complaint, Sink.bytes]
  · simp [hs, Sink.write_eq, hline]

/-- A cache whose block fits adds it, and the account goes on. -/
theorem dumpCache_of_fits (hs : d.stopped = false) (hp : p.dump reg d.world = (script, w))
    (h : d.sink.Fits (Sink.bytes (block reg script))) :
    (dumpCache p reg d).2 = ⟨d.sink.push (Sink.bytes (block reg script)), false, w⟩ := by
  simp only [block, Sink.bytes_append, Sink.fits_append] at h
  obtain ⟨⟨hline, hpieces⟩, hcomplaint⟩ := h
  simp [dumpCache_eq hs hp, block, Sink.bytes_append, Sink.push_push, hline, hpieces, hcomplaint]

/-- Of a block the sink takes what fits, whatever the cache makes of a refusal. -/
theorem sink_dumpCache (hs : d.stopped = false) (hp : p.dump reg d.world = (script, w)) :
    (dumpCache p reg d).2.sink = d.sink.push (Sink.bytes (block reg script)) := by
  simp only [block, Sink.bytes_append, ← Sink.push_push]
  rw [dumpCache_eq hs hp]
  by_cases hline : d.sink.Fits (Sink.bytes (cacheLine reg))
  · rw [if_pos hline]
    by_cases hpieces : (d.sink.push (Sink.bytes (cacheLine reg))).Fits
        (Sink.bytes (String.join script.pieces))
    · simp only [hpieces, if_true]
    · simp only [Sink.push_of_full (Sink.room_of_not_fits hpieces)]
  · rw [if_neg hline]
    simp only [Sink.push_of_full (Sink.room_of_not_fits hline)]

theorem sink_dumpCache_of_full (h : d.sink.room = some 0) : (dumpCache p reg d).2.sink = d.sink := by
  cases hs : d.stopped with
  | true => simp [dumpCache, hs]
  | false => rw [sink_dumpCache hs rfl, Sink.push_of_full h]

theorem foldl_dumpCache_of_full (h : d.sink.room = some 0) :
    (regs.foldl (fun d reg => (dumpCache p reg d).2) d).sink = d.sink := by
  induction regs generalizing d with
  | nil => rfl
  | cons reg regs ih =>
    have hsame : (dumpCache p reg d).2.sink = d.sink := sink_dumpCache_of_full h
    rw [List.foldl_cons, ih (by rw [hsame, h]), hsame]

/-- One registration after the other: the sink takes of all blocks what fits, and nothing stops it as long as
they fit. -/
theorem foldl_dumpCache (regs : List (Registration κ)) (hs : d.stopped = false) :
    let out := regs.foldl (fun d reg => (dumpCache p reg d).2) d
    let text := Sink.bytes (blocks p regs d.world)
    out.sink = d.sink.push text ∧ (d.sink.Fits text → out.stopped = false) := by
  induction regs generalizing d with
  | nil => simp [blocks, Sink.bytes, hs]
  | cons reg regs ih =>
    simp only [List.foldl_cons, blocks, Sink.bytes_append, ← Sink.push_push, Sink.fits_append]
    by_cases h : d.sink.Fits (Sink.bytes (block reg (p.dump reg d.world).1))
    · rw [dumpCache_of_fits hs rfl h]
      simpa only [h, true_and] using ih rfl
    · refine ⟨?_, fun hf => absurd hf.1 h⟩
      have hfull := Sink.room_of_not_fits h
      rw [← sink_dumpCache hs rfl] at hfull ⊢
      rw [Sink.push_of_full hfull, foldl_dumpCache_of_full hfull]

/-- Where the account is once every cache has been asked for its own. -/
def afterCaches (p : CachePort κ ω) (l : Lineup) (k : Sink) (s : Service κ ω) : Dumping ω :=
  (broadcast (dumpCache p) s.registry.snapshotAll
    ⟨(k.write (scorerLine l)).2, false, s.link.world⟩).2

theorem afterCaches_spec (p : CachePort κ ω) (l : Lineup) (k : Sink) (s : Service κ ω) :
    let begun := k.push (Sink.bytes (scorerLine l))
    let text := Sink.bytes (blocks p s.registry.listed s.link.world)
    (afterCaches p l k s).sink = begun.push text ∧
      (begun.Fits text → (afterCaches p l k s).stopped = false) := by
  rw [afterCaches, broadcast_state, Sink.write_eq]
  exact foldl_dumpCache s.registry.listed rfl

theorem dump_of_line {p : Ports κ ω} (h : k.Fits (Sink.bytes (scorerLine l))) :
    let d := afterCaches p.caches l k s
    let last := Sink.bytes s.link.report
    (s.dump p l k).1 = (!d.stopped && decide (d.sink.Fits last)) ∧
      (s.dump p l k).2.1 = if d.stopped then d.sink else d.sink.push last := by
  simp only [dump, afterCaches, Sink.write_eq, h, decide_true]
  split
  · rename_i hs
    simp [hs]
  · rename_i hs
    rw [Bool.not_eq_true] at hs
    simp only [hs]
    exact ⟨rfl, rfl⟩

theorem dump_of_no_line {p : Ports κ ω} (h : ¬ k.Fits (Sink.bytes (scorerLine l))) :
    s.dump p l k = (false, k.push (Sink.bytes (scorerLine l)), s) := by
  simp [dump, Sink.write_eq, h]

/-- An account is well written if it fits, and of one that does not the sink has taken what fits. -/
theorem dump_eq (p : Ports κ ω) (l : Lineup) (k : Sink) (s : Service κ ω) :
    let text := Sink.bytes (account p.caches l s)
    (s.dump p l k).1 = decide (k.Fits text) ∧ (s.dump p l k).2.1 = k.push text := by
  simp only [account, Sink.bytes_append, ← Sink.push_push, Sink.fits_append]
  by_cases hline : k.Fits (Sink.bytes (scorerLine l))
  · obtain ⟨hsink, hgoes⟩ := afterCaches_spec p.caches l k s
    obtain ⟨htaken, hout⟩ := dump_of_line (p := p) (s := s) hline
    rw [htaken, hout, ← hsink]
    by_cases hblocks : (k.push (Sink.bytes (scorerLine l))).Fits
        (Sink.bytes (blocks p.caches s.registry.listed s.link.world))
    · simp [hline, hblocks, hgoes hblocks]
    · have hfull := Sink.room_of_not_fits hblocks
      rw [← hsink] at hfull
      simp [hline, hblocks, Sink.push_of_full hfull, Sink.not_fits_of_full hfull (bytes_report _)]
  · rw [dump_of_no_line hline]
    simp [hline, Sink.push_of_full (Sink.room_of_not_fits hline)]

theorem dump_of_unbounded {p : Ports κ ω} {sink : Sink} {s : Service κ ω} (h : sink.room = none)
    (l : Lineup) : (s.dump p l sink).1 = true := by
  rw [(dump_eq p l sink s).1, decide_eq_true_eq]
  intro n hn
  simp [h] at hn

theorem world_dumpCache {P : ω → Prop} (hp : ∀ reg w, P w → P (p.dump reg w).2) (h : P d.world) :
    P (dumpCache p reg d).2.world := by
  cases hs : d.stopped with
  | true => simpa [dumpCache, hs] using h
  | false =>
    rw [dumpCache_eq hs rfl]
    dsimp only
    split
    · exact hp reg d.world h
    · exact h

/-- Of a service, an account leaves all but the world as it is, and keeps of the world what the accounts of
single caches keep. -/
theorem dump_service {p : Ports κ ω} {s : Service κ ω} {P : ω → Prop}
    (hp : ∀ reg w, P w → P (p.caches.dump reg w).2) (h : P s.link.world) (l : Lineup) (sink : Sink) :
    ∃ w, P w ∧ (s.dump p l sink).2.2 = { s with link := { s.link with world := w } } := by
  unfold dump
  split
  · exact ⟨s.link.world, h, rfl⟩
  · rename_i k _
    have hk : P (broadcast (dumpCache p.caches) s.registry.snapshotAll
        ⟨k, false, s.link.world⟩).2.world :=
      broadcast_keeps (P := fun d : Dumping ω => P d.world) (fun _ _ hd => world_dumpCache hp hd) _ h
    dsimp only
    split
    · exact ⟨_, hk, rfl⟩
    · exact ⟨_, hk, rfl⟩

end Service

end ScoreRelay
