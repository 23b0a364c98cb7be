/-! A sink for bytes that may take only so many. -/
namespace ScoreRelay

/-- What a sink has taken, and how much more it will take; `none` is without bound. -/
structure Sink where
  taken : List UInt8 := []
  room : Option Nat := none
  deriving DecidableEq, Repr

namespace Sink

/-- What the sink says when it takes no more. -/
def fullText : String := "sink full"

/-- The bytes of a text. -/
def bytes (s : String) : List UInt8 := s.toList.flatMap String.utf8EncodeChar

/-- Write a text. A full sink takes what still fits and refuses; false tells of that. -/
def write (k : Sink) (s : String) : Bool × Sink :=
  match k.room with
  | none => (true, { k with taken := k.taken ++ bytes s })
  | some n =>
    let bs := bytes s
    (bs.length ≤ n, ⟨k.taken ++ bs.take n, some (n - bs.length)⟩)

/-- Write one text after the other until one is refused. -/
def writeAll (k : Sink) : List String → Bool × Sink
  | [] => (true, k)
  | s :: ss =>
    match k.write s with
    | (true, k) => writeAll k ss
    | (false, k) => (false, k)

/-- The text that some bytes spell once at most `n` of them are given up at the end. -/
def front : Nat → List UInt8 → String
  | 0, _ => ""
  | n + 1, bs =>
    match String.fromUTF8? ⟨bs.toArray⟩ with
    | some s => s
    | none => front n bs.dropLast

/-- What was taken, as text. A character cut in two shows as one replacement mark. -/
def text (k : Sink) : String :=
  match String.fromUTF8? ⟨k.taken.toArray⟩ with
  | some s => s
  | none => front 3 k.taken.dropLast ++ "\uFFFD"

end Sink

end ScoreRelay
