import ScoreRelay.Json.Basic

/-! The marks, words, numbers and strings of a JSON text, found by one pass over its characters. -/
namespace ScoreRelay.Json

inductive Token where
  | beginArray
  | endArray
  | beginObject
  | endObject
  | comma
  | colon
  | null
  | bool (b : Bool)
  | number (l : Literal)
  | string (s : Option String)
  deriving DecidableEq

/-- How far a number has been read. -/
inductive NumberPhase where
  | minus
  | zero
  | whole
  | point
  | fraction
  | mark
  | sign
  | exponent
  deriving DecidableEq

/-- A number may end here. -/
def NumberPhase.complete : NumberPhase → Bool
  | .zero | .whole | .fraction | .exponent => true
  | .minus | .point | .mark | .sign => false

/-- A number being read; the digits stand in reverse. -/
structure Figures where
  negative : Bool := false
  whole : List Char := []
  fraction : List Char := []
  marked : Bool := false
  exponentNegative : Bool := false
  exponent : List Char := []
  deriving DecidableEq

def Figures.literal (f : Figures) : Literal :=
  ⟨f.negative, f.whole.reverse, f.fraction.reverse,
    if f.marked then some (f.exponentNegative, f.exponent.reverse) else none⟩

/-- One more character of a number, if it belongs to it. -/
def Figures.extend (f : Figures) : NumberPhase → Char → Option (NumberPhase × Figures)
  | .minus, c =>
    if c = '0' then some (.zero, { f with whole := [c] })
    else if c.isDigit then some (.whole, { f with whole := [c] })
    else none
  | .zero, c => tail f c
  | .whole, c => if c.isDigit then some (.whole, { f with whole := c :: f.whole }) else tail f c
  | .point, c => if c.isDigit then some (.fraction, { f with fraction := [c] }) else none
  | .fraction, c =>
    if c.isDigit then some (.fraction, { f with fraction := c :: f.fraction })
    else if c = 'e' ∨ c = 'E' then some (.mark, { f with marked := true })
    else none
  | .mark, c =>
    if c = '+' then some (.sign, f)
    else if c = '-' then some (.sign, { f with exponentNegative := true })
    else if c.isDigit then some (.exponent, { f with exponent := [c] })
    else none
  | .sign, c => if c.isDigit then some (.exponent, { f with exponent := [c] }) else none
  | .exponent, c =>
    if c.isDigit then some (.exponent, { f with exponent := c :: f.exponent }) else none
where
  tail (f : Figures) (c : Char) : Option (NumberPhase × Figures) :=
    if c = '.' then some (.point, f)
    else if c = 'e' ∨ c = 'E' then some (.mark, { f with marked := true })
    else none

/-- A string being read: its characters in reverse, the first half of a surrogate pair that
awaits the second, and whether all halves so far have found each other. -/
structure Letters where
  chars : List Char := []
  high : Option Nat := none
  sound : Bool := true
  deriving DecidableEq

namespace Letters

def char (l : Letters) (c : Char) : Letters :=
  ⟨c :: l.chars, none, l.sound && l.high.isNone⟩

/-- A sixteen-bit unit given by an escape. -/
def unit (l : Letters) (n : Nat) : Letters :=
  if 0xD800 ≤ n ∧ n < 0xDC00 then ⟨l.chars, some n, l.sound && l.high.isNone⟩
  else if 0xDC00 ≤ n ∧ n < 0xE000 then
    match l.high with
    | some h => ⟨Char.ofNat (0x10000 + (h - 0xD800) * 0x400 + (n - 0xDC00)) :: l.chars, none, l.sound⟩
    | none => ⟨l.chars, none, false⟩
  else l.char (Char.ofNat n)

def close (l : Letters) : Option String :=
  if l.sound && l.high.isNone then some (String.ofList l.chars.reverse) else none

end Letters

/-- What the reader is in the middle of. -/
inductive Scan where
  | idle
  /-- A word, with the letters still owed and the token it makes. -/
  | word (owed : List Char) (token : Token)
  | number (phase : NumberPhase) (figures : Figures)
  | string (letters : Letters)
  | escape (letters : Letters)
  /-- A numeric escape with that many digits still owed. -/
  | unit (letters : Letters) (owed : Nat) (value : Nat)

def hexValue? (c : Char) : Option Nat :=
  if c.isDigit then some (c.toNat - 48)
  else if 'a' ≤ c ∧ c ≤ 'f' then some (c.toNat - 87)
  else if 'A' ≤ c ∧ c ≤ 'F' then some (c.toNat - 55)
  else none

/-- The character named by a one-letter escape. -/
def unescape? (c : Char) : Option Char :=
  match c with
  | '"' => some '"'
  | '\\' => some '\\'
  | '/' => some '/'
  | 'b' => some '\x08'
  | 'f' => some '\x0c'
  | 'n' => some '\n'
  | 'r' => some '\r'
  | 't' => some '\t'
  | _ => none

namespace Scan

/-- A character outside words, numbers and strings. -/
def start (c : Char) : Option (Scan × List Token) :=
  match c with
  | ' ' | '\n' | '\t' | '\r' => some (.idle, [])
  | '[' => some (.idle, [.beginArray])
  | ']' => some (.idle, [.endArray])
  | '\x7b' => some (.idle, [.beginObject])
  | '\x7d' => some (.idle, [.endObject])
  | ',' => some (.idle, [.comma])
  | ':' => some (.idle, [.colon])
  | '"' => some (.string {}, [])
  | 'n' => some (.word ['u', 'l', 'l'] .null, [])
  | 't' => some (.word ['r', 'u', 'e'] (.bool true), [])
  | 'f' => some (.word ['a', 'l', 's', 'e'] (.bool false), [])
  | '-' => some (.number .minus { negative := true }, [])
  | '0' => some (.number .zero { whole := ['0'] }, [])
  | c => if c.isDigit then some (.number .whole { whole := [c] }, []) else none

/-- Read one character; the tokens that it completes come with the new state. -/
def step : Scan → Char → Option (Scan × List Token)
  | .idle, c => start c
  | .word [] _, _ => none
  | .word [d] t, c => if c = d then some (.idle, [t]) else none
  | .word (d :: e :: owed) t, c => if c = d then some (.word (e :: owed) t, []) else none
  | .number p f, c =>
    match f.extend p c with
    | some (p', f') => some (.number p' f', [])
    | none =>
      if p.complete && !(p = .zero && c.isDigit) then
        (start c).map fun (s, ts) => (s, .number f.literal :: ts)
      else none
  | .string l, c =>
    if c = '"' then some (.idle, [.string l.close])
    else if c = '\\' then some (.escape l, [])
    else if c.toNat < 32 then none
    else some (.string (l.char c), [])
  | .escape l, c =>
    if c = 'u' then some (.unit l 4 0, [])
    else (unescape? c).map fun d => (.string (l.char d), [])
  | .unit l owed value, c =>
    (hexValue? c).map fun d =>
      if owed ≤ 1 then (.string (l.unit (value * 16 + d)), [])
      else (.unit l (owed - 1) (value * 16 + d), [])

/-- The tokens completed by the end of the text. -/
def finish : Scan → Option (List Token)
  | .idle => some []
  | .number p f => if p.complete then some [.number f.literal] else none
  | _ => none

end Scan

/-- Read on from a state, with the tokens found so far in reverse. -/
def tokensFrom (s : Scan) (found : List Token) : List Char → Option (List Token)
  | [] =>
    match s.finish with
    | some ts => some (found.reverse ++ ts)
    | none => none
  | c :: cs =>
    match s.step c with
    | some (s', ts) => tokensFrom s' (ts.reverse ++ found) cs
    | none => none

/-- The tokens of a text, or nothing if it is not made of tokens. -/
def tokens? (cs : List Char) : Option (List Token) := tokensFrom .idle [] cs

end ScoreRelay.Json
