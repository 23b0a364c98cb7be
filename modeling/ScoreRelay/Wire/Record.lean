import ScoreRelay.Json.Basic

/-! Decoding of spelled JSON into typed values: single values, lists, names out of a fixed set, and
records, which may be written as an object or as an array of their fields in order. -/
namespace ScoreRelay.Wire

open Json

/-- Reads a typed value from its spelling, or refuses it. -/
abbrev Decoder (α : Type) := Source → Option α

def bool : Decoder Bool
  | .bool b => some b
  | _ => none

def string : Decoder String
  | .string s => s
  | _ => none

/-- A number written as an integer below `bound`. -/
def natural (bound : Nat) : Decoder Nat
  | .number l =>
    match l.int? with
    | some (.ofNat n) => if n < bound then some n else none
    | _ => none
  | _ => none

def uint8 : Decoder UInt8 := fun s => (natural UInt8.size s).map UInt8.ofNat

def uint32 : Decoder UInt32 := fun s => (natural UInt32.size s).map UInt32.ofNat

def uint64 : Decoder UInt64 := fun s => (natural UInt64.size s).map UInt64.ofNat

def list {α : Type} (d : Decoder α) : Decoder (List α)
  | .array items => items.mapM d
  | _ => none

/-- A value or `null`. -/
def nullable {α : Type} (d : Decoder α) : Decoder (Option α)
  | .null => some none
  | s => (d s).map some

/-- One of a fixed set of values: its name, or an object that maps its name to `null`. -/
def named {α : Type} (all : List α) (name : α → String) : Decoder α
  | .string (some s) => all.find? fun a => name a = s
  | .object [(some s, .null)] => all.find? fun a => name a = s
  | _ => none

/-- The fields given for a record, by name. -/
structure Record where
  /-- The record was written as an array. -/
  positional : Bool
  given : List (String × Source)

namespace Record

/-- The members with known names. A known name that is given twice is refused. -/
def known (names : List String) : List (Option String × Source) → Option (List (String × Source))
  | [] => some []
  | (key, s) :: ms => do
    let k ← key
    let rest ← known names ms
    if names.contains k then
      if (rest.lookup k).isSome then none else some ((k, s) :: rest)
    else some rest

/-- The fields of a record with the given names, in order. -/
def of? (names : List String) : Decoder Record
  | .object ms => (known names ms).map (⟨false, ·⟩)
  | .array items => if items.length ≤ names.length then some ⟨true, names.zip items⟩ else none
  | _ => none

variable {α : Type}

/-- A field that must be given. -/
def required (r : Record) (name : String) (d : Decoder α) : Option α :=
  match r.given.lookup name with
  | some s => d s
  | none => none

/-- A field that stands for `a` when left out. -/
def defaulted (r : Record) (name : String) (a : α) (d : Decoder α) : Option α :=
  match r.given.lookup name with
  | some s => d s
  | none => some a

/-- A field that may be `null`, and may be left out of an object but not of an array. -/
def nullable (r : Record) (name : String) (d : Decoder α) : Option (Option α) :=
  match r.given.lookup name with
  | some s => Wire.nullable d s
  | none => if r.positional then none else some none

/-- A field that may be `null` or left out. -/
def optional (r : Record) (name : String) (d : Decoder α) : Option (Option α) :=
  r.defaulted name none (Wire.nullable d)

end Record

/-- An optional value, written as `null` when it is missing. -/
def orNull {α : Type} (encode : α → Json) : Option α → Json
  | some a => encode a
  | none => .null

/-- The members for an optional field that is left out when it is missing. -/
def unlessMissing {α : Type} (name : String) (encode : α → Json) : Option α → List (String × Json)
  | some a => [(name, encode a)]
  | none => []

end ScoreRelay.Wire
