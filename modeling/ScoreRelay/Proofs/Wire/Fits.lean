import ScoreRelay.Proofs.Json.Value
import ScoreRelay.Wire.Envelope
import ScoreRelay.Wire.Package
import ScoreRelay.Wire.Request

/-! What is written down does not go deeper than a few levels, free-form parts apart, and its numbers
have room. -/
namespace ScoreRelay

open Json Wire

variable {n : Nat}

theorem fits_array {α : Type} {write : α → Json} (h : ∀ x, (write x).Fits n) (xs : List α) :
    (Json.array (xs.map write)).Fits (n + 1) := by
  refine .array fun v hv => ?_
  obtain ⟨x, -, rfl⟩ := List.mem_map.mp hv
  exact h x

theorem fits_orNull {α : Type} {write : α → Json} (h : ∀ x, (write x).Fits n) (o : Option α) :
    (orNull write o).Fits n := by
  cases o with
  | none => exact .null
  | some x => exact h x

theorem fits_uint8 (k : UInt8) : (Json.int k.toNat).Fits n :=
  fits_natural (Nat.lt_trans k.toNat_lt (by decide))

theorem fits_uint32 (k : UInt32) : (Json.int k.toNat).Fits n :=
  fits_natural (Nat.lt_trans k.toNat_lt (by decide))

theorem fits_key (k : NetworkKey) : k.json.Fits (n + 1) :=
  .object (by simp) (by simp [NetworkType.json])

theorem fits_scored (m : ScoredNetwork) : m.json.Fits (n + 2) :=
  .object (by simp) (by simp [fits_key, fits_uint8])

theorem fits_endpoint (e : Endpoint) : e.json.Fits (n + 1) := .object (by simp) (by simp)

theorem fits_scorer (s : Scorer) : s.json.Fits (n + 1) :=
  .object (by simp) (by simp [fits_uint32, fits_orNull])

theorem fits_wifi (w : WifiConfiguration) : w.json.Fits (n + 1) := by
  obtain ⟨ssid, bssid⟩ := w
  cases bssid <;> exact .object (by simp [unlessMissing]) (by simp [unlessMissing])

theorem fits_question (q : RecommendationRequest) : q.json.Fits (n + 3) :=
  .object (by simp) (by simp [fits_orNull, fits_array, fits_wifi])

theorem fits_recommendation (r : Recommendation) : r.json.Fits (n + 2) :=
  .object (by simp) (by simp [fits_orNull, fits_wifi])

theorem fits_event (e : PackageEvent) : e.json.Fits (n + 2) := by
  cases e <;> exact .object (by simp) (by simp [fits_array])

theorem fits_caller (c : Caller) : c.json.Fits (n + 2) := by
  have hp : ∀ p : Privilege, p.json.Fits n := fun p => .string p.name
  exact .object (by simp) (by simp [fits_uint32, fits_array hp])

theorem fits_credentials (c : Credentials) : c.json.Fits (n + 3) :=
  .object (by simp) (by simp [fits_caller])

theorem fits_update (u : ScoresUpdate) : u.json.Fits (n + 4) :=
  .object (by simp) (by simp [fits_caller, fits_array, fits_scored])

theorem fits_reply {r : Reply} (h : r.data.Fits n) : r.json.Fits (n + 1) := by
  obtain ⟨id, success, error, data⟩ := r
  cases data <;> cases error <;> exact .object (by simp [unlessMissing]) (by simp_all [unlessMissing])

theorem fits_envelope {e : Envelope} (h : e.payload.Fits n) : e.json.Fits (n + 1) :=
  .object (by simp) (by simp [h])

end ScoreRelay
