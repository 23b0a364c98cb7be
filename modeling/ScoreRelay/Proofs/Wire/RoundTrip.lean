import ScoreRelay.Proofs.Json.Assembly
import ScoreRelay.Proofs.Time.Written
import ScoreRelay.Proofs.Wire.Fits
import ScoreRelay.Proofs.Wire.Reply

/-! Whatever is written is read again as it was, be it decoded from its text at once, or read as a free-form
value first, or brought by an envelope. -/
namespace ScoreRelay

open Json Wire

theorem NetworkType.decode_json (t : NetworkType) : decode t.json.source = some t :=
  named_source t.mem_all fun _ => name_injective

theorem NetworkKey.decode_json (k : NetworkKey) : decode k.json.source = some k := by
  rw [json, decode, Record.of?_object (by simp) (by simp)]
  simp [Record.required, Record.lookup_of_ne, NetworkType.decode_json]

theorem ScoredNetwork.decode_json (n : ScoredNetwork) : decode n.json.source = some n := by
  rw [json, decode, Record.of?_object (by simp) (by simp)]
  simp [Record.required, Record.defaulted, Record.lookup_of_ne, NetworkKey.decode_json]

theorem Endpoint.decode_json (e : Endpoint) : decode e.json.source = some e := by
  rw [json, decode, Record.of?_object (by simp) (by simp)]
  simp [Record.required, Record.lookup_of_ne]

theorem Scorer.decode_json (s : Scorer) : decode s.json.source = some s := by
  rw [json, decode, Record.of?_object (by simp) (by simp)]
  simp [Record.required, Record.nullable, Record.lookup_of_ne, nullable_orNull string_source rfl]

/-- An access point that is missing is left out, and taken as missing where it is left out. -/
theorem WifiConfiguration.decode_json (w : WifiConfiguration) : decode w.json.source = some w := by
  obtain ⟨ssid, bssid⟩ := w
  rw [json, decode]
  cases bssid <;>
    rw [Record.of?_object (by simp [unlessMissing]) (by simp [unlessMissing])] <;>
    simp [unlessMissing, Record.required, Record.optional, Record.defaulted, Record.lookup_of_ne, source,
      Wire.nullable, Wire.string]

theorem RecommendationRequest.decode_json (q : RecommendationRequest) :
    decode q.json.source = some q := by
  rw [json, decode, Record.of?_object (by simp) (by simp)]
  simp [Record.optional, Record.defaulted, Record.lookup_of_ne,
    nullable_orNull WifiConfiguration.decode_json rfl, list_source WifiConfiguration.decode_json]

theorem Privilege.decode_json (p : Privilege) : decode p.json.source = some p := by
  cases p <;> rfl

theorem Caller.decode_json (c : Caller) : decode c.json.source = some c := by
  rw [json, decode, Record.of?_object (by simp) (by simp)]
  simp [Record.required, Record.defaulted, Record.lookup_of_ne, list_source Privilege.decode_json]

theorem Credentials.decode_json (c : Credentials) : decode c.json.source = some c := by
  rw [json, decode, Record.of?_object (by simp) (by simp)]
  simp [Record.required, Caller.decode_json]

theorem ScoresUpdate.decode_json (u : ScoresUpdate) : decode u.json.source = some u := by
  rw [json, decode, Record.of?_object (by simp) (by simp)]
  simp [Record.required, Record.lookup_of_ne, Caller.decode_json, list_source ScoredNetwork.decode_json]

namespace PackageEvent

/-- The tag is taken out from among the members, and the others are read as the event of that kind. -/
theorem decode_tagged {ms : List (String × Json)} (hk : "kind" ∉ ms.map Prod.fst)
    (hf : ∀ m ∈ ms, m.2.Fits (maxLevels - 1)) (kind : String) :
    decode (Json.object (("kind", .string kind) :: ms)).source =
      ofFields kind (Json.object ms).source := by
  have hparts : ∀ m ∈ memberSources ms,
      m.1 ≠ some "kind" ∧ (m.1.isSome && readable m.2) = true := by
    rw [memberSources_eq]
    intro _ hmem
    obtain ⟨m, hm, rfl⟩ := List.mem_map.mp hmem
    refine ⟨fun he => hk (Option.some.inj he ▸ List.mem_map_of_mem hm), ?_⟩
    simp [readable, value?_source (hf m hm)]
  have hp : ((some "kind", Source.string (some kind)) :: memberSources ms).partition
      (fun m => m.1 = some "kind") = ([(some "kind", .string (some kind))], memberSources ms) := by
    rw [List.partition_eq_filter_filter, List.filter_cons_of_pos (by simp),
      List.filter_cons_of_neg (by simp),
      List.filter_eq_nil_iff.mpr fun m hm => by simpa using (hparts m hm).1,
      List.filter_eq_self.mpr fun m hm => by simpa using (hparts m hm).1]
  have hr : (memberSources ms).all (fun m => m.1.isSome && readable m.2) = true :=
    List.all_eq_true.mpr fun m hm => (hparts m hm).2
  simp only [source, memberSources, decode, hp, hr, if_true]

theorem one_json (make : String → PackageEvent) (p : String) :
    ofFields.one (Json.object [("package", .string p)]).source make = some (make p) := by
  rw [ofFields.one, Record.of?_object (by simp) (by simp)]
  simp [Record.required]

theorem decode_json (e : PackageEvent) : decode e.json.source = some e := by
  cases e with
  | forceStopped ps executed =>
    have hp : (Json.array (ps.map .string)).Fits (maxLevels - 1) := fits_array Fits.string ps
    rw [json, decode_tagged (by simp) (by simp [hp]), kind, ofFields]
    rw [Record.of?_object (by simp) (by simp)]
    simp [Record.required, Record.lookup_of_ne, list_source string_source]
  | _ =>
    rw [json, decode_tagged (by simp) (by simp), kind, ofFields]
    simp [one_json]

end PackageEvent

theorem Envelope.decode_json {e : Envelope} (h : e.payload.Fits (maxLevels - 1)) :
    decode e.json.source = some e := by
  have ht : timestamp (Json.string e.ts.text).source = some e.ts := by
    rw [timestamp, string_source, Option.bind_some, Time.Timestamp.ofText?_text]
  rw [json, decode, Record.of?_object (by simp) (by simp)]
  simp [Record.required, Record.defaulted, Record.lookup_of_ne, ht, value?_source h]

theorem Envelope.ofText?_text {e : Envelope} (h : e.payload.Fits (maxLevels - 1)) :
    ofText? e.json.text = some e := by
  have hf : e.json.Fits maxLevels := fits_envelope h
  rw [ofText?, ofText?_text_source hf, Option.bind_some, decode_json h]

namespace Wire

variable {α : Type} {encode : α → Json} {decode : Decoder α} {a : α}

/-- The text of a value is decoded as the value, at once or by way of a free-form value. -/
structure Restored (encode : α → Json) (decode : Decoder α) (a : α) : Prop where
  direct : (Source.ofText? (encode a).text).bind decode = some a
  parsed : ((Json.ofText? (encode a).text).bind fun v => decode v.source) = some a

/-- The value comes out of every envelope that brings it, too. -/
structure Carried (encode : α → Json) (decode : Decoder α) (a : α) : Prop
    extends Restored encode decode a where
  delivered : ∀ e : Envelope, ((Envelope.ofText? { e with payload := encode a }.json.text).bind
    fun e => decode e.payload.source) = some a

theorem restored_of_fits (hf : (encode a).Fits maxLevels) (hd : decode (encode a).source = some a) :
    Restored encode decode a := by
  refine ⟨?_, ?_⟩
  · rw [ofText?_text_source hf]
    exact hd
  · rw [ofText?_text hf]
    exact hd

theorem carried_of_fits (hf : (encode a).Fits (maxLevels - 1))
    (hd : decode (encode a).source = some a) : Carried encode decode a := by
  refine ⟨restored_of_fits (fits_succ hf) hd, fun e => ?_⟩
  rw [Envelope.ofText?_text hf]
  exact hd

/-- Every value of the protocol survives being written and read, and a reply in the envelope that answers
a request is that reply. Free-form parts may be nested as deep as a text may, the containers around them
counted in. -/
theorem carried_unchanged :
    (∀ k, Carried NetworkKey.json NetworkKey.decode k) ∧
    (∀ n, Carried ScoredNetwork.json ScoredNetwork.decode n) ∧
    (∀ p, Carried Endpoint.json Endpoint.decode p) ∧
    (∀ s, Carried Scorer.json Scorer.decode s) ∧
    (∀ w, Carried WifiConfiguration.json WifiConfiguration.decode w) ∧
    (∀ q, Carried RecommendationRequest.json RecommendationRequest.decode q) ∧
    (∀ e, Carried PackageEvent.json PackageEvent.decode e) ∧
    (∀ c, Carried Caller.json Caller.decode c) ∧
    (∀ u, Carried ScoresUpdate.json ScoresUpdate.decode u) ∧
    (∀ r : Reply, (r.data.Fits (maxLevels - 1) → Restored Reply.json Reply.decode r) ∧
      (r.data.Fits (maxLevels - 2) → Carried Reply.json Reply.decode r)) ∧
    (∀ e : Envelope, e.payload.Fits (maxLevels - 1) → Restored Envelope.json Envelope.decode e) ∧
    ∀ (e : Envelope) (id : String) (now : Time.Timestamp) (requestId : String),
      (∀ data : Json, data.Fits (maxLevels - 1) →
        Reply.decode (e.respond id now (.ok requestId data)).payload.source =
          some (.ok requestId data)) ∧
      ∀ error : String, Reply.decode (e.respond id now (.err requestId error)).payload.source =
        some (.err requestId error) := by
  refine ⟨fun k => carried_of_fits (fits_key k) k.decode_json,
    fun n => carried_of_fits (fits_scored n) n.decode_json,
    fun p => carried_of_fits (fits_endpoint p) p.decode_json,
    fun s => carried_of_fits (fits_scorer s) s.decode_json,
    fun w => carried_of_fits (fits_wifi w) w.decode_json,
    fun q => carried_of_fits (fits_question q) q.decode_json,
    fun e => carried_of_fits (fits_event e) e.decode_json,
    fun c => carried_of_fits (fits_caller c) c.decode_json,
    fun u => carried_of_fits (fits_update u) u.decode_json, fun r => ⟨fun h => ?_, fun h => ?_⟩,
    fun e h => ?_, fun e id now requestId => ⟨fun data h => ?_, fun error => ?_⟩⟩
  · exact restored_of_fits (fits_reply h) (Reply.decode_json h)
  · exact carried_of_fits (fits_reply h) (Reply.decode_json (fits_succ h))
  · exact restored_of_fits (fits_envelope h) (Envelope.decode_json h)
  · exact Reply.decode_json h
  · exact Reply.decode_json .null

/-- Data with a list in an object, and texts that are written with escapes. -/
def nestedData : Json :=
  .object [("notes", .array [.string "a \"quoted\" line\n", .null, .int (-7)]), ("empty", .object [])]

def nestedEnvelope : Envelope :=
  ⟨"msg_1", "dump", ⟨⟨2024, 2, 29⟩, 23, 59, 60, 5000, by decide⟩, nestedData⟩

theorem nestedData_fits {n : Nat} : nestedData.Fits (n + 2) :=
  .object (by decide) (by
    simp only [List.forall_mem_cons]
    exact ⟨.array (by simp; exact .int (by decide) (by decide)), .object (by simp) (by simp), by simp⟩)

theorem carried_unchanged_nested :
    nestedData.Fits (maxLevels - 2) ∧ nestedEnvelope.payload.Fits (maxLevels - 1) ∧
      Carried Reply.json Reply.decode (.ok "msg_1" nestedData) ∧
      Restored Envelope.json Envelope.decode nestedEnvelope ∧
      Reply.decode (nestedEnvelope.respond "msg_2" nestedEnvelope.ts
        (.ok "msg_1" nestedData)).payload.source = some (.ok "msg_1" nestedData) := by
  obtain ⟨-, -, -, -, -, -, -, -, -, hreply, henvelope, hrespond⟩ := carried_unchanged
  exact ⟨nestedData_fits, nestedData_fits, (hreply (.ok "msg_1" nestedData)).2 nestedData_fits,
    henvelope _ nestedData_fits, (hrespond _ _ _ _).1 _ nestedData_fits⟩

end Wire

end ScoreRelay
