import ScoreRelay.Json.Token

/-! Reading JSON: the tokens of a text are assembled with a stack of the containers still open. -/
namespace ScoreRelay.Json

/-- A container still open, its parts in reverse. -/
inductive Frame where
  | array (items : List Source)
  | object (members : List (Option String × Source))
  /-- An object that awaits the value of a key. -/
  | field (members : List (Option String × Source)) (key : Option String)

/-- What may come next. -/
inductive Stage where
  | value
  | firstItem
  | firstKey
  | key
  | colon
  | separator
  | finished (v : Source)

structure Assembly where
  stage : Stage
  stack : List Frame

namespace Assembly

def initial : Assembly := ⟨.value, []⟩

/-- Hand a complete value to the innermost open container. -/
def deliver (v : Source) : List Frame → Option Assembly
  | [] => some ⟨.finished v, []⟩
  | .array items :: fs => some ⟨.separator, .array (v :: items) :: fs⟩
  | .field ms k :: fs => some ⟨.separator, .object ((k, v) :: ms) :: fs⟩
  | .object _ :: _ => none

/-- A token where a value must stand. -/
def begin (stack : List Frame) : Token → Option Assembly
  | .null => deliver .null stack
  | .bool b => deliver (.bool b) stack
  | .number l => deliver (.number l) stack
  | .string s => deliver (.string s) stack
  | .beginArray => some ⟨.firstItem, .array [] :: stack⟩
  | .beginObject => some ⟨.firstKey, .object [] :: stack⟩
  | .endArray | .endObject | .comma | .colon => none

def endArray : List Frame → Option Assembly
  | .array items :: fs => deliver (.array items.reverse) fs
  | _ => none

def endObject : List Frame → Option Assembly
  | .object ms :: fs => deliver (.object ms.reverse) fs
  | _ => none

def beginMember (k : Option String) : List Frame → Option Assembly
  | .object ms :: fs => some ⟨.colon, .field ms k :: fs⟩
  | _ => none

def separate : List Frame → Option Assembly
  | .array items :: fs => some ⟨.value, .array items :: fs⟩
  | .object ms :: fs => some ⟨.key, .object ms :: fs⟩
  | _ => none

/-- Take in one token. -/
def step (a : Assembly) (t : Token) : Option Assembly :=
  match a.stage, t with
  | .value, t => begin a.stack t
  | .firstItem, .endArray => endArray a.stack
  | .firstItem, t => begin a.stack t
  | .firstKey, .endObject => endObject a.stack
  | .firstKey, .string k => beginMember k a.stack
  | .key, .string k => beginMember k a.stack
  | .colon, .colon => some ⟨.value, a.stack⟩
  | .separator, .comma => separate a.stack
  | .separator, .endArray => endArray a.stack
  | .separator, .endObject => endObject a.stack
  | _, _ => none

/-- The value, once nothing is missing. -/
def result? (a : Assembly) : Option Source :=
  match a.stage with
  | .finished v => some v
  | _ => none

/-- Take in tokens until one does not fit. -/
def run (a : Assembly) : List Token → Option Assembly
  | [] => some a
  | t :: ts =>
    match a.step t with
    | some b => run b ts
    | none => none

end Assembly

/-- The spelling read from a text that is one JSON value between blanks. -/
def Source.ofText? (s : String) : Option Source := do
  let ts ← tokens? s.toList
  let a ← Assembly.initial.run ts
  a.result?

/-- The value of a text. -/
def ofText? (s : String) : Option Json := do
  let v ← Source.ofText? s
  v.value? maxLevels

end ScoreRelay.Json
