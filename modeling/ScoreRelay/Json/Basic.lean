import ScoreRelay.Json.Number

/-! JSON twice: as a text spells it, and as the value it stands for. A text may repeat a key, and it
may hold numbers and strings that are well spelled and yet stand for nothing. -/
namespace ScoreRelay

/-- A free-form value. The keys of an object are distinct in every value that is read. -/
inductive Json where
  | null
  | bool (b : Bool)
  | int (i : Int)
  | real (l : Json.Literal)
  | string (s : String)
  | array (items : List Json)
  | object (members : List (String × Json))

namespace Json

/-- A value as a text spells it. A string with half of a surrogate pair in it is `none`. -/
inductive Source where
  | null
  | bool (b : Bool)
  | number (l : Literal)
  | string (s : Option String)
  | array (items : List Source)
  | object (members : List (Option String × Source))

mutual

/-- The spelling of a value. -/
def source : Json → Source
  | .null => .null
  | .bool b => .bool b
  | .int i => .number (Literal.ofInt i)
  | .real l => .number l
  | .string s => .string (some s)
  | .array items => .array (sources items)
  | .object members => .object (memberSources members)

def sources : List Json → List Source
  | [] => []
  | v :: vs => source v :: sources vs

def memberSources : List (String × Json) → List (Option String × Source)
  | [] => []
  | (k, v) :: ms => (some k, source v) :: memberSources ms

end

/-- Set the value of a key, in its old place if there is one. -/
def put (key : String) (v : Json) : List (String × Json) → List (String × Json)
  | [] => [(key, v)]
  | (k, w) :: ms => if k = key then (k, v) :: ms else (k, w) :: put key v ms

/-- A count, which is kept in 64 bits. -/
def count (n : Nat) : Json := .int (UInt64.ofNat n).toNat

/-- The nesting limit of a text. -/
def maxLevels : Nat := 127

namespace Source

mutual

/-- The value spelled, with at most `levels` containers inside one another. Of members with the
same key the last one counts. -/
def value? (levels : Nat) : Source → Option Json
  | .null => some .null
  | .bool b => some (.bool b)
  | .number l =>
    match l.int? with
    | some i => some (.int i)
    | none => if l.overflows then none else some (.real l)
  | .string s => s.map .string
  | .array items =>
    match levels with
    | 0 => none
    | n + 1 => (values? n items).map .array
  | .object members =>
    match levels with
    | 0 => none
    | n + 1 => (members? n members []).map .object

def values? (levels : Nat) : List Source → Option (List Json)
  | [] => some []
  | s :: ss => do
    let v ← value? levels s
    let vs ← values? levels ss
    return v :: vs

def members? (levels : Nat) :
    List (Option String × Source) → List (String × Json) → Option (List (String × Json))
  | [], acc => some acc
  | (k, s) :: ms, acc => do
    let key ← k
    let v ← value? levels s
    members? levels ms (put key v acc)

end

end Source

/-- The member of an object with the given key. -/
def get? (v : Json) (key : String) : Option Json :=
  match v with
  | .object ms => ms.lookup key
  | _ => none

end Json

end ScoreRelay
