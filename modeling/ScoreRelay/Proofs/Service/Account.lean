import Mathlib.Logic.Basic
import ScoreRelay.Proofs.Service.Dump
import ScoreRelay.Scripted.Cache

/-! The account of a service under a limit: it fails exactly if one of its writes is refused, wherever that is,
and what was taken is the beginning of the whole text. -/
namespace ScoreRelay.Service

variable {κ ω : Type} {p : CachePort κ ω} {reg : Registration κ} {regs : List (Registration κ)}
  {d : Dumping ω} {l : Lineup} {k : Sink} {s : Service κ ω}

/-- A write of the account of one cache is refused: its first line, one of its pieces, or the line about its
failure. -/
def RefusesCache (p : CachePort κ ω) (reg : Registration κ) (d : Dumping ω) : Prop :=
  let script := (p.dump reg d.world).1
  let (line, k) := d.sink.write (cacheLine reg)
  let (pieces, k) := k.writeAll script.pieces
  d.stopped = false ∧ (line = false ∨ pieces = false ∨
    ∃ reason, script.ending = .failed reason ∧ (k.write (failureLine reason)).1 = false)

/-- So it is for one of some caches. -/
def RefusesAny (p : CachePort κ ω) : List (Registration κ) → Dumping ω → Prop
  | [], _ => False
  | reg :: regs, d => RefusesCache p reg d ∨ RefusesAny p regs (dumpCache p reg d).2

/-- A write of the account of a service is refused. -/
def Refuses (p : CachePort κ ω) (l : Lineup) (k : Sink) (s : Service κ ω) : Prop :=
  let (line, begun) := k.write (scorerLine l)
  let d := afterCaches p l k s
  line = false ∨ RefusesAny p s.registry.listed ⟨begun, false, s.link.world⟩ ∨
    d.stopped = false ∧ (d.sink.write s.link.report).1 = false

theorem refusesCache_iff (hs : d.stopped = false) : RefusesCache p reg d ↔
    ¬ d.sink.Fits (Sink.bytes (block reg (p.dump reg d.world).1)) := by
  simp only [RefusesCache, hs, Sink.write_eq, Sink.writeAll_eq, block, Sink.bytes_append,
    Sink.fits_append, ← Sink.push_push, not_and_or, decide_eq_false_iff_not, true_and, or_assoc]
  cases (p.dump reg d.world).1.ending with
  | delivered => simp [complaint, Sink.bytes]
  | crashed => simp [complaint, Sink.bytes]
  | failed reason => simp [complaint]

theorem refusesAny_iff (hs : d.stopped = false) : RefusesAny p regs d ↔
    ¬ d.sink.Fits (Sink.bytes (blocks p regs d.world)) := by
  induction regs generalizing d with
  | nil => simp [RefusesAny, blocks, Sink.bytes]
  | cons reg regs ih =>
    rw [RefusesAny, refusesCache_iff hs, blocks, Sink.bytes_append, Sink.fits_append, not_and_or]
    by_cases h : d.sink.Fits (Sink.bytes (block reg (p.dump reg d.world).1))
    · rw [dumpCache_of_fits hs rfl h, ih rfl]
    · simp only [h, not_false_eq_true, true_or]

theorem refuses_iff : Refuses p l k s ↔ ¬ k.Fits (Sink.bytes (account p l s)) := by
  obtain ⟨hsink, hgoes⟩ := afterCaches_spec p l k s
  simp only [Refuses, account, Sink.write_eq, Sink.bytes_append, Sink.fits_append,
    ← Sink.push_push, not_and_or, decide_eq_false_iff_not, refusesAny_iff, or_assoc, hsink]
  by_cases hblocks : (k.push (Sink.bytes (scorerLine l))).Fits
      (Sink.bytes (blocks p s.registry.listed s.link.world))
  · simp only [hgoes hblocks, true_and]
  · simp only [hblocks, not_false_eq_true, true_or, or_true]

/-- An account into a sink without bound succeeds, and the sink takes the whole text: the scorer in charge, a
block for each registration in their order, whatever becomes of the caches, and the link. Under a limit it
fails exactly if one of its writes is refused, which is if the text is too long, and the sink takes the
beginning of the text up to the limit. In any case the service stays as it is, but for the world in which the
caches are; of that everything stays that no cache changes over its own account. -/
theorem account_cut_at_limit (p : Ports κ ω) (l : Lineup) (s : Service κ ω) :
    let text := Sink.bytes (account p.caches l s)
    ((s.dump p l {}).1 = true ∧ (s.dump p l {}).2.1.taken = text) ∧
      (∀ n, let limited : Sink := { room := some n }
        ((s.dump p l limited).1 = false ↔ Refuses p.caches l limited s) ∧
          ((s.dump p l limited).1 = false ↔ n < text.length) ∧
          (s.dump p l limited).2.1.taken = text.take n) ∧
      ∀ (k : Sink) (P : ω → Prop), (∀ reg w, P w → P (p.caches.dump reg w).2) →
        P s.link.world → ∃ w, P w ∧
          (s.dump p l k).2.2 = { s with link := { s.link with world := w } } := by
  intro text
  refine ⟨⟨dump_of_unbounded rfl l, ?_⟩, ?_, fun k P hp hw => dump_service hp hw l k⟩
  · rw [(dump_eq p l {} s).2]
    rfl
  · intro n limited
    obtain ⟨htaken, hout⟩ := dump_eq p l limited s
    rw [htaken, hout, decide_eq_false_iff_not, refuses_iff, Sink.fits_within, Nat.not_le]
    exact ⟨Iff.rfl, Iff.rfl, rfl⟩

/-- A scripted cache, told how its account ends. -/
def outspoken (id text : String) (ending : Scripted.Ending) : Registration Scripted.CacheScript :=
  ⟨.wifi, id, .none, .mk id .ok .ok ending text false [] []⟩

/-- Three caches, of which the first fails over its account and the second one crashes. -/
def brokenService : Service Scripted.CacheScript Scripted.World where
  registry := [outspoken "x" "one\n" .fail, outspoken "y" "two\n" .crash,
    outspoken "z" "three\n" .ok].foldl (fun r reg => (r.register reg).2) {}
  link := { world := { binder := {} } }

def brokenText : String :=
  "Scoring is disabled.\n" ++
  "ScoreCache x [wifi] filter=none\none\nFailed to dump score cache: cache x died\n" ++
  "ScoreCache y [wifi] filter=none\ntwo\n" ++
  "ScoreCache z [wifi] filter=none\nthree\n" ++
  "ScorerConnection: none\n"

/-- Without bound all of this is written; a limit inside the line on the failure cuts it off there. -/
theorem account_cut_at_limit_broken :
    (brokenService.dump Scripted.ports ⟨none, []⟩ {}).1 = true ∧
      (brokenService.dump Scripted.ports ⟨none, []⟩ {}).2.1.taken = Sink.bytes brokenText ∧
      (brokenService.dump Scripted.ports ⟨none, []⟩ { room := some 70 }).1 = false ∧
      (brokenService.dump Scripted.ports ⟨none, []⟩ { room := some 70 }).2.1.taken =
        (Sink.bytes brokenText).take 70 ∧
      ∃ w, w.binder = brokenService.link.world.binder ∧
        (brokenService.dump Scripted.ports ⟨none, []⟩ { room := some 70 }).2.2 =
          { brokenService with link := { brokenService.link with world := w } } := by
  have htext : account Scripted.cachePort ⟨none, []⟩ brokenService = brokenText := by decide +kernel
  obtain ⟨⟨hall, hwhole⟩, hlimit, hkept⟩ :=
    account_cut_at_limit Scripted.ports ⟨none, []⟩ brokenService
  obtain ⟨-, hfails, hfront⟩ := hlimit 70
  have hports : Scripted.ports.caches = Scripted.cachePort := rfl
  rw [hports, htext] at hwhole hfails hfront
  refine ⟨hall, hwhole, hfails.mpr (by decide +kernel), hfront, ?_⟩
  refine hkept _ (fun w => w.binder = brokenService.link.world.binder) ?_ rfl
  intro reg w hw
  have hb : (Scripted.cachePort.dump reg w).2.binder = w.binder := by
    unfold Scripted.cachePort
    dsimp only
    split <;> rfl
  exact hb.trans hw

end ScoreRelay.Service
