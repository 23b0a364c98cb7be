import ScoreRelay.Caller
import ScoreRelay.Wire.Record

/-! The written forms of callers and privileges. -/
namespace ScoreRelay

open Wire

def Privilege.json (p : Privilege) : Json := .string p.name

def Privilege.decode : Decoder Privilege := named Privilege.all Privilege.name

def Caller.json (c : Caller) : Json :=
  .object [("uid", .int c.uid.toNat), ("privileges", .array (c.privileges.map Privilege.json))]

def Caller.decode : Decoder Caller := fun s => do
  let r ← Record.of? ["uid", "privileges"] s
  let uid ← r.required "uid" uint32
  let privileges ← r.defaulted "privileges" [] (list Privilege.decode)
  return ⟨uid, privileges⟩

end ScoreRelay
