import ScoreRelay.Proofs.Agent.Authority
import ScoreRelay.Proofs.Service.Dump
import ScoreRelay.Proofs.Service.Steady
import ScoreRelay.Proofs.Wire.Fits
import ScoreRelay.Proofs.Wire.Reply
import ScoreRelay.Tcp

/-! How an agent answers. Every message gets one reply, which can be read; a line that is no message gets
none; and what is turned away has changed nothing. -/
namespace ScoreRelay

theorem fits_summary {n : Nat} (c : MemoryCache) : c.summary.Fits (n + 4) :=
  .object (by simp) (by simp [NetworkType.json, CacheFilter.json, fits_array fits_scored])

namespace Agent

open Json

variable {σ α : Type} {b : Binder σ} {a : Agent σ} {q : Request} {f : Fault} {d : Json} {n : Nat}

/-- A request whose caller may not make it, or that is not served at all. -/
def Refused (l : Lineup) : Request → Prop
  | .scoresUpdate u => l.isActive u.caller.uid = false
  | .scoresClear c => (l.isActive c.caller.uid || c.caller.holds .broadcastNetworkPrivileged) = false
  | .dump c => c.caller.holds .dump = false
  | .scoresRequest _ => True
  | _ => False

theorem steady_ports (hb : b.Steady) : (ports b).binder.Steady := fun e session w =>
  hb e session w.binder

/-- The answer is data that a reply can carry. -/
def Answered (o : Outcome (Except Fault Json)) : Prop :=
  ∃ d, o = .done (.ok d) ∧ d.Fits (maxLevels - 1)

theorem answered_answer {o : Outcome α × Service Nat (World σ)} {data : α → Json}
    (ho : ∃ x, o.1 = .done x) (hd : ∀ x, (data x).Fits (maxLevels - 1)) :
    Answered (answer o a data).1 := by
  obtain ⟨r, s⟩ := o
  obtain ⟨x, rfl⟩ := ho
  exact ⟨data x, rfl, hd x⟩

theorem answered_bool (name : String) (ok : Bool) :
    Answered (.done (.ok (.object [(name, .bool ok)]))) :=
  ⟨_, rfl, .object (by simp) (by simp)⟩

theorem answered_count (name : String) (n : Nat) :
    Answered (.done (.ok (.object [(name, count n)]))) :=
  ⟨_, rfl, .object (by simp) (by simp [fits_count])⟩

/-- A caller who may not is turned away before anything is done. -/
theorem checked_guarded (check : Except Denial Unit)
    (act : Service Nat (World σ) → Except Fault α × Service Nat (World σ)) (data : α → Json) :
    checked (Access.guarded check act a.service) a data =
      match check with
      | .ok () => checked (act a.service) a data
      | .error d => (.done (.error d.fault), a) := by
  cases check <;> rfl

/-- A request is refused, and has changed nothing, or it is answered. -/
theorem perform_cases (hb : b.Steady) (q : Request) (a : Agent σ) :
    (∃ f, perform b q a = (.done (.error f), a) ∧ Refused a.lineup q) ∨
      Answered (perform b q a).1 ∧ ¬ Refused a.lineup q := by
  have hs := steady_ports hb
  cases q with
  | packageEvent e =>
    exact Or.inr ⟨answered_answer (Service.packageEvent_done hs e) fun n =>
      .object (by simp) (by simp [fits_count]), id⟩
  | settingChanged c =>
    exact Or.inr ⟨answered_answer (Service.settingEvent_done hs) fun seen =>
      .object (by simp) (by simp), id⟩
  | userUnlocked u =>
    exact Or.inr ⟨answered_answer ⟨(), Service.bindTo_done hs _ _⟩ fun _ => .null, id⟩
  | scoresUpdate u =>
    simp only [perform, Access.updateScores, checked_guarded, Access.asScorer, Refused]
    cases a.lineup.isActive u.caller.uid with
    | true => exact Or.inr ⟨answered_bool "accepted" true, by simp⟩
    | false => exact Or.inl ⟨_, rfl, rfl⟩
  | scoresClear c =>
    simp only [perform, Access.clearScores, checked_guarded, Access.asScorerOrManager, Refused]
    cases a.lineup.isActive c.caller.uid || c.caller.holds .broadcastNetworkPrivileged with
    | true => exact Or.inr ⟨answered_bool "cleared" true, by simp⟩
    | false => exact Or.inl ⟨_, rfl, rfl⟩
  | scoresRequest r => exact Or.inl ⟨_, rfl, trivial⟩
  | recommendation r => exact Or.inr ⟨⟨_, rfl, fits_recommendation _⟩, id⟩
  | dump c =>
    simp only [perform, Access.dump, Access.withPrivilege, Refused]
    cases c.caller.holds .dump with
    | true =>
      have hd : (a.service.dump (ports b) a.lineup {}).1 = true := Service.dump_of_unbounded rfl _
      simp only [if_true]
      split <;> rename_i heq <;> rw [heq] at hd
      · exact Or.inr ⟨⟨_, rfl, .object (by simp) (by simp)⟩, by simp⟩
      · contradiction
    | false => exact Or.inl ⟨_, rfl, rfl⟩
  | cachesList => exact Or.inr ⟨⟨_, rfl, fits_array fits_summary _⟩, id⟩
  | networkCurrent c => exact Or.inr ⟨⟨_, rfl, .null⟩, id⟩
  | networkScan c => exact Or.inr ⟨answered_count "networks" _, id⟩

/-- A message is answered with a reply to it; one that is turned away changes nothing. -/
theorem handle_cases (hb : b.Steady) (e : Envelope) (a : Agent σ) :
    (∃ text, handle b e a = (.replied e.replyType (.err e.id text), a) ∧
        ∀ q, Request.ofEnvelope e = .ok q → Refused a.lineup q) ∨
      ∃ d q, (handle b e a).1 = .replied e.replyType (.ok e.id d) ∧ d.Fits (maxLevels - 1) ∧
        Request.ofEnvelope e = .ok q ∧ ¬ Refused a.lineup q := by
  unfold handle
  cases hq : Request.ofEnvelope e with
  | error u => exact Or.inl ⟨u.message, rfl, by simp⟩
  | ok q =>
    dsimp only
    rcases perform_cases hb q a with ⟨f, hp, hr⟩ | ⟨⟨d, hp, hd⟩, hr⟩
    · rw [hp]
      exact Or.inl ⟨f.message, rfl, fun q' h => Except.ok.inj h ▸ hr⟩
    · refine Or.inr ⟨d, q, ?_, hd, rfl, hr⟩
      split <;> rename_i heq <;> rw [heq] at hp <;> cases hp
      rfl

/-- A line that is no message is passed over. A message gets one reply, of its own type and under its own
identifier, which is read from the payload sent as it was meant; an error stands in it exactly if it tells
of no success. That is so if the message holds no request, or one that is refused, and then the agent is
what it was before. -/
theorem line_answered (hb : b.Steady) (line : String) (a : Agent σ) :
    (Envelope.ofText? line = none → handleLine b line a = (.silent, a)) ∧
      ∀ e, Envelope.ofText? line = some e →
        ∃ reply, (handleLine b line a).1 = .replied (e.type ++ ".response") reply ∧
          (∀ id now, (e.respond id now reply).type = e.type ++ ".response" ∧
            Reply.decode (e.respond id now reply).payload.source = some reply) ∧
          reply.requestId = e.id ∧ (reply.error.isSome ↔ reply.success = false) ∧
          (reply.success = false ↔ ∀ q, Request.ofEnvelope e = .ok q → Refused a.lineup q) ∧
          (reply.success = false → (handleLine b line a).2 = a) := by
  constructor
  · intro hn
    simp only [handleLine, hn]
  · intro e he
    simp only [handleLine, he]
    rcases handle_cases hb e a with ⟨text, hh, hr⟩ | ⟨d, q, hh, hd, hq, hr⟩
    · rw [hh]
      exact ⟨.err e.id text, rfl, fun _ _ => ⟨rfl, Reply.decode_json .null⟩, rfl,
        by simp [Reply.err], by simpa [Reply.err] using hr, fun _ => rfl⟩
    · refine ⟨.ok e.id d, hh, fun _ _ => ⟨rfl, Reply.decode_json hd⟩, rfl, by simp [Reply.ok],
        ?_, ?_⟩
      · simp only [Reply.ok, Bool.true_eq_false, false_iff]
        exact fun hall => hr (hall q hq)
      · simp [Reply.ok]

/-- A caller that is not in charge and holds nothing wants the caches cleared. -/
def strangerLine : String :=
  (Envelope.json ⟨"1", "scores.clear", ⟨⟨2024, 1, 2⟩, 0, 0, 0, 0, by decide⟩,
    Credentials.json ⟨⟨7, []⟩⟩⟩).text

/-- The pair behind a binder that knows no address of theirs. -/
abbrev unreachablePair : Agent Tcp.Table :=
  started Tcp.binder pair (fun _ => "cache") (.ofConfig pair)

theorem steady_tcp : Tcp.binder.Steady := by
  intro e session t
  simp only [Tcp.binder, Tcp.Table.bind]
  split <;> simp

theorem request_stranger :
    (Input.line strangerLine).request? = some (.scoresClear ⟨⟨7, []⟩⟩) := by
  rw [strangerLine, request_line (fits_credentials _)]
  simp [Request.ofEnvelope, Request.ofEnvelope.read, Credentials.decode_json, Except.toOption]

/-- The stranger is told so, and nothing has changed. -/
theorem line_answered_stranger : Tcp.binder.Steady ∧
    ∃ e reply, Envelope.ofText? strangerLine = some e ∧
      (handleLine Tcp.binder strangerLine unreachablePair).1 =
        .replied (e.type ++ ".response") reply ∧
      reply.success = false ∧
      (handleLine Tcp.binder strangerLine unreachablePair).2 = unreachablePair := by
  obtain ⟨e, he, hq⟩ := request_of_line request_stranger
  obtain ⟨reply, hreply, -, -, -, hsuccess, hkeeps⟩ :=
    (line_answered steady_tcp strangerLine unreachablePair).2 e he
  have hfalse : reply.success = false := by
    refine hsuccess.mpr fun q h => ?_
    obtain rfl := Except.ok.inj (hq.symm.trans h)
    unfold Refused
    decide +kernel
  exact ⟨steady_tcp, e, reply, he, hreply, hfalse, hkeeps hfalse⟩

end Agent

end ScoreRelay
