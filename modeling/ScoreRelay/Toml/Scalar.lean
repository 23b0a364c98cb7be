import ScoreRelay.Text.Digits
import ScoreRelay.Time.Timestamp
import ScoreRelay.Toml.Basic

/-! Plain TOML values: truth values, numbers, dates and times. -/
namespace ScoreRelay.Toml

open ScoreRelay.Text

/-- Digits with single underscores between them; the digits are returned. -/
def grouped? (digit : Char → Bool) : List Char → Option (List Char)
  | [c] => if digit c then some [c] else none
  | c :: '_' :: cs => if digit c then (grouped? digit cs).map (c :: ·) else none
  | c :: cs => if digit c then (grouped? digit cs).map (c :: ·) else none
  | [] => none

/-- Decimal digits without a needless zero in front. -/
def whole? (cs : List Char) : Option (List Char) :=
  match grouped? Char.isDigit cs with
  | some ds => if ds.length ≠ 1 ∧ ds.head? = some '0' then none else some ds
  | none => none

def radixDigit (radix : Nat) (c : Char) : Bool :=
  let n := c.toNat
  if c.isDigit then n - 48 < radix
  else radix = 16 && ((97 ≤ n && n ≤ 102) || (65 ≤ n && n ≤ 70))

def digitValue (c : Char) : Nat :=
  let n := c.toNat
  if n ≤ 57 then n - 48 else if n ≤ 70 then n - 55 else n - 87

def radixValue (radix : Nat) (ds : List Char) : Nat := ds.foldl (fun n c => n * radix + digitValue c) 0

/-- Take off a sign; the flag tells a minus. -/
def unsigned : List Char → Bool × List Char
  | '-' :: cs => (true, cs)
  | '+' :: cs => (false, cs)
  | cs => (false, cs)

def integer? (cs : List Char) : Option Int :=
  match cs with
  | '0' :: 'x' :: ds => (grouped? (radixDigit 16) ds).map fun ds => radixValue 16 ds
  | '0' :: 'o' :: ds => (grouped? (radixDigit 8) ds).map fun ds => radixValue 8 ds
  | '0' :: 'b' :: ds => (grouped? (radixDigit 2) ds).map fun ds => radixValue 2 ds
  | cs =>
    let (negative, ds) := unsigned cs
    (whole? ds).map fun ds => if negative then -(valueOfDigits ds : Int) else valueOfDigits ds

/-- Every underscore stands between two hexadecimal digits. -/
def underscoresFit : List Char → Bool
  | '_' :: _ | [_, '_'] => false
  | c :: '_' :: d :: cs => radixDigit 16 c && radixDigit 16 d && underscoresFit (d :: cs)
  | _ :: cs => underscoresFit cs
  | [] => true

/-- A prefix without digits, or a decimal number with groups of which only the first is all digits. The
others may hold anything that does not make it a float. -/
def isGarbled (cs : List Char) : Bool :=
  match cs with
  | ['0', 'x'] | ['0', 'o'] | ['0', 'b'] => true
  | cs =>
    let (_, body) := unsigned cs
    match body.dropWhile Char.isDigit with
    | '_' :: rest =>
      body.head? ≠ some '0' && underscoresFit body &&
        rest.all fun c => c ≠ ' ' && c ≠ '.' && c ≠ 'e' && c ≠ 'E'
    | _ => false

/-- The decimal number `m * 10 ^ e` rounds to a finite double. -/
def isFinite (m : Nat) (e : Int) : Bool :=
  let bound := Nat.pow 2 1024 - Nat.pow 2 970
  let size : Int := (Nat.toDigits 10 m).length + e
  if m = 0 ∨ size < 300 then true
  else if 320 < size then false
  else if 0 ≤ e then m * Nat.pow 10 e.toNat < bound
  else m < bound * Nat.pow 10 (-e).toNat

/-- Cut a text at the first character that satisfies a test. -/
def cut (p : Char → Bool) (cs : List Char) : List Char × List Char :=
  (cs.takeWhile (!p ·), cs.dropWhile (!p ·))

def exponent? (cs : List Char) : Option Int :=
  let (negative, ds) := unsigned cs
  (grouped? Char.isDigit ds).map fun ds => if negative then -(valueOfDigits ds : Int) else valueOfDigits ds

/-- A float: whether it is finite, if it is one. -/
def float? (cs : List Char) : Option Bool :=
  let (_, body) := unsigned cs
  if body = ['i', 'n', 'f'] ∨ body = ['n', 'a', 'n'] then some true
  else do
    let (mantissa, power) := cut (fun c => c = 'e' || c = 'E') body
    let (front, back) := cut (· = '.') mantissa
    if power.isEmpty && back.isEmpty then none
    let w ← whole? front
    let f ← match back with
      | [] => some []
      | _ :: ds => grouped? Char.isDigit ds
    let e ← match power with
      | [] => some 0
      | _ :: ds => exponent? ds
    return isFinite (valueOfDigits (w ++ f)) (e - f.length)

/-- Exactly `n` digits and what follows them. -/
def digits? (n : Nat) (cs : List Char) : Option (Nat × List Char) :=
  let ds := cs.take n
  if ds.length = n ∧ ds.all Char.isDigit then some (valueOfDigits ds, cs.drop n) else none

def expect? (c : Char) : List Char → Option (List Char)
  | d :: cs => if d = c then some cs else none
  | [] => none

/-- Leave out a calendar day. -/
def afterDate? (cs : List Char) : Option (List Char) := do
  let (y, cs) ← digits? 4 cs
  let cs ← expect? '-' cs
  let (m, cs) ← digits? 2 cs
  let cs ← expect? '-' cs
  let (d, cs) ← digits? 2 cs
  if 1 ≤ d ∧ d ≤ Time.monthLength y m then some cs else none

/-- Leave out a time of day. Seconds and parts of a second may be missing. -/
def afterTime? (cs : List Char) : Option (List Char) := do
  let (h, cs) ← digits? 2 cs
  let cs ← expect? ':' cs
  let (m, cs) ← digits? 2 cs
  if 23 < h ∨ 59 < m then none
  match cs with
  | ':' :: cs =>
    let (s, cs) ← digits? 2 cs
    if 60 < s then none
    match cs with
    | '.' :: cs => if (cs.takeWhile Char.isDigit).isEmpty then none else some (cs.dropWhile Char.isDigit)
    | cs => some cs
  | cs => some cs

/-- The offset from universal time at the end of a date-time, if any. -/
def isOffset (cs : List Char) : Bool :=
  match cs with
  | [] | ['Z'] | ['z'] => true
  | '+' :: rest | '-' :: rest =>
    match digits? 2 rest with
    | some (h, ':' :: rest) =>
      match digits? 2 rest with
      | some (m, []) => h ≤ 23 && m ≤ 59
      | _ => false
    | _ => false
  | _ => false

/-- A date, a time, or both with or without an offset. -/
def isDatetime (cs : List Char) : Bool :=
  match afterDate? cs with
  | some [] => true
  | some (c :: rest) =>
    (c = 'T' || c = 't' || c = ' ') && ((afterTime? rest).map isOffset).getD false
  | none => afterTime? cs = some []

/-- A value written without quotes or brackets. -/
def scalar? (cs : List Char) : Option Toml :=
  if cs = "true".toList then some (.boolean true)
  else if cs = "false".toList then some (.boolean false)
  else
    match integer? cs with
    | some i => some (.integer i)
    | none =>
      match float? cs with
      | some finite => some (.float finite)
      | none => if isDatetime cs then some .datetime else if isGarbled cs then some .garbled else none

end ScoreRelay.Toml
