import ScoreRelay.Json.Reader
import ScoreRelay.Time.Timestamp
import ScoreRelay.Wire.Record

/-! Messages of the control protocol: the envelope around every message and the reply within. -/
namespace ScoreRelay

open Wire Json

/-- A message with its identifier, its dotted type and the instant it was made. -/
structure Envelope where
  id : String
  type : String
  ts : Time.Timestamp
  payload : Json

/-- The answer to a request: data when it succeeded, an error text when not. -/
structure Reply where
  requestId : String
  success : Bool
  error : Option String
  data : Json

namespace Reply

def ok (requestId : String) (data : Json) : Reply := ⟨requestId, true, none, data⟩

def err (requestId : String) (error : String) : Reply := ⟨requestId, false, some error, .null⟩

/-- Empty data is left out. -/
def json (r : Reply) : Json :=
  .object ([("request_id", .string r.requestId), ("success", .bool r.success)] ++
    unlessMissing "error" .string r.error ++
    match r.data with
    | .null => []
    | data => [("data", data)])

def decode : Decoder Reply := fun s => do
  let r ← Record.of? ["request_id", "success", "error", "data"] s
  let requestId ← r.required "request_id" string
  let success ← r.required "success" bool
  let error ← r.optional "error" string
  let data ← r.defaulted "data" .null (Source.value? (maxLevels - 1))
  return ⟨requestId, success, error, data⟩

end Reply

namespace Envelope

def timestamp : Decoder Time.Timestamp := fun s => (string s).bind Time.Timestamp.ofText?

def json (e : Envelope) : Json :=
  .object [("id", .string e.id), ("type", .string e.type), ("ts", .string e.ts.text),
    ("payload", e.payload)]

def decode : Decoder Envelope := fun s => do
  let r ← Record.of? ["id", "type", "ts", "payload"] s
  let id ← r.required "id" string
  let type ← r.required "type" string
  let ts ← r.required "ts" timestamp
  let payload ← r.defaulted "payload" .null (Source.value? (maxLevels - 1))
  return ⟨id, type, ts, payload⟩

/-- Read an envelope from a line. -/
def ofText? (line : String) : Option Envelope := (Source.ofText? line).bind decode

/-- The type of the reply to this message. -/
def replyType (e : Envelope) : String := e.type ++ ".response"

/-- The reply to this message, sent under a new identifier. -/
def respond (e : Envelope) (id : String) (now : Time.Timestamp) (reply : Reply) : Envelope :=
  ⟨id, e.replyType, now, reply.json⟩

end Envelope

end ScoreRelay
