import ScoreRelay.Package
import ScoreRelay.Wire.Record

/-! The written form of package events: an object tagged with its kind, or an array that begins
with it. -/
namespace ScoreRelay

open Wire Json

namespace PackageEvent

/-- The tag of an event. -/
def kind : PackageEvent → String
  | .added _ => "added"
  | .removed _ => "removed"
  | .modified _ => "modified"
  | .updateFinished _ => "update_finished"
  | .forceStopped _ _ => "force_stopped"

def json (e : PackageEvent) : Json :=
  .object (("kind", .string e.kind) ::
    match e with
    | .added p | .removed p | .modified p | .updateFinished p => [("package", .string p)]
    | .forceStopped ps executed =>
      [("packages", .array (ps.map .string)), ("executed", .bool executed)])

/-- The event of a kind, from its other fields. -/
def ofFields (kind : String) (fields : Source) : Option PackageEvent :=
  if kind = "added" then one .added
  else if kind = "removed" then one .removed
  else if kind = "modified" then one .modified
  else if kind = "update_finished" then one .updateFinished
  else if kind = "force_stopped" then do
    let r ← Record.of? ["packages", "executed"] fields
    let packages ← r.required "packages" (list string)
    let executed ← r.required "executed" bool
    return .forceStopped packages executed
  else none
where
  one (make : String → PackageEvent) : Option PackageEvent := do
    let r ← Record.of? ["package"] fields
    let package ← r.required "package" string
    return make package

/-- Whether a part of an event stands for a value, be it used or not. -/
def readable (s : Source) : Bool := (s.value? (maxLevels - 1)).isSome

/-- Read an event. Each part must be readable, and the kind given once. -/
def decode : Decoder PackageEvent
  | .object ms =>
    let (tags, fields) := ms.partition fun m => m.1 = some "kind"
    match tags with
    | [(_, .string (some kind))] =>
      if fields.all fun m => m.1.isSome && readable m.2 then ofFields kind (.object fields) else none
    | _ => none
  | .array (.string (some kind) :: fields) =>
    if fields.all readable then ofFields kind (.array fields) else none
  | _ => none

end PackageEvent

end ScoreRelay
