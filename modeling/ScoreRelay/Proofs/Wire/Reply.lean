import ScoreRelay.Proofs.Wire.Record
import ScoreRelay.Wire.Envelope

/-! A reply is read as it was written. What it leaves out is what the reader puts in its place. -/
namespace ScoreRelay

open Wire Json

namespace Reply

/-- The members of a reply. -/
theorem json_eq (r : Reply) : ∃ data : List (String × Json),
    r.json = .object ([("request_id", .string r.requestId), ("success", .bool r.success)] ++
      unlessMissing "error" .string r.error ++ data) ∧
      (r.data = .null ∧ data = [] ∨ data = [("data", r.data)]) := by
  obtain ⟨id, success, error, data⟩ := r
  cases data with
  | null => exact ⟨[], rfl, Or.inl ⟨rfl, rfl⟩⟩
  | _ => exact ⟨_, rfl, Or.inr rfl⟩

/-- Error and data are there or not, each for itself. -/
theorem decode_json {r : Reply} (h : r.data.Fits (maxLevels - 1)) :
    decode r.json.source = some r := by
  obtain ⟨data, hj, hd⟩ := r.json_eq
  have hv := value?_source h
  obtain ⟨id, success, error, value⟩ := r
  rw [hj, decode]
  rcases hd with ⟨hn, rfl⟩ | rfl <;> cases error <;>
    rw [Record.of?_object (by simp [unlessMissing]) (by simp [unlessMissing])] <;>
    simp_all [unlessMissing, Record.required, Record.defaulted, Record.optional, Record.lookup_of_ne,
      Wire.nullable, source, Wire.string, Wire.bool]

end Reply

end ScoreRelay
