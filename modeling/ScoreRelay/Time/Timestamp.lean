import ScoreRelay.Text.Blank
import ScoreRelay.Text.Digits

/-! Instants in universal time, read from and written as RFC 3339 date-times. -/
namespace ScoreRelay.Time

open ScoreRelay.Text

/-- Gregorian leap years, before the year 1 as well. -/
def isLeapYear (y : Int) : Bool := y % 4 == 0 && (y % 100 != 0 || y % 400 == 0)

/-- The number of days of a month, zero for a month that does not exist. -/
def monthLength (y : Int) (m : Nat) : Nat :=
  match m with
  | 1 | 3 | 5 | 7 | 8 | 10 | 12 => 31
  | 4 | 6 | 9 | 11 => 30
  | 2 => if isLeapYear y then 29 else 28
  | _ => 0

structure Date where
  year : Int
  month : Nat
  day : Nat
  deriving DecidableEq, Repr

namespace Date

/-- A day of the calendar, within the years that can be represented. -/
def Valid (d : Date) : Prop :=
  -262143 ≤ d.year ∧ d.year ≤ 262142 ∧ 1 ≤ d.day ∧ d.day ≤ monthLength d.year d.month

instance (d : Date) : Decidable d.Valid := by unfold Valid; infer_instance

/-- The day after. -/
def next (d : Date) : Date :=
  if d.day < monthLength d.year d.month then { d with day := d.day + 1 }
  else if d.month < 12 then ⟨d.year, d.month + 1, 1⟩
  else ⟨d.year + 1, 1, 1⟩

/-- The day before. -/
def previous (d : Date) : Date :=
  if 1 < d.day then { d with day := d.day - 1 }
  else if 1 < d.month then ⟨d.year, d.month - 1, monthLength d.year (d.month - 1)⟩
  else ⟨d.year - 1, 12, 31⟩

end Date

/-- An instant to the nanosecond. Second 60 is a leap second. -/
structure Timestamp where
  date : Date
  hour : Nat
  minute : Nat
  second : Nat
  nanos : Nat
  valid : date.Valid ∧ hour < 24 ∧ minute < 60 ∧ second ≤ 60 ∧ nanos < 1000000000
  deriving DecidableEq

namespace Timestamp

def of? (date : Date) (hour minute second nanos : Nat) : Option Timestamp :=
  if h : date.Valid ∧ hour < 24 ∧ minute < 60 ∧ second ≤ 60 ∧ nanos < 1000000000 then
    some ⟨date, hour, minute, second, nanos, h⟩
  else none

/-- The instant at which clocks that are `offset` minutes ahead show the time given. -/
def rebase (t : Timestamp) (offset : Int) : Option Timestamp :=
  let m : Int := t.hour * 60 + t.minute - offset
  let (date, m) :=
    if m < 0 then (t.date.previous, m + 1440)
    else if 1440 ≤ m then (t.date.next, m - 1440)
    else (t.date, m)
  of? date (m.toNat / 60) (m.toNat % 60) t.second t.nanos

/-- Drop one given character after blanks. -/
def mark? (c : Char) (cs : List Char) : Option (List Char) :=
  match trimFront cs with
  | d :: rest => if d = c then some rest else none
  | [] => none

/-- A field of at most two digits after blanks. -/
def field? (cs : List Char) : Option (Nat × List Char) := number? 2 (trimFront cs)

/-- A year: up to four digits, or any number of them after a sign. -/
def year? (cs : List Char) : Option (Int × List Char) :=
  match trimFront cs with
  | '-' :: rest => (number? rest.length rest).map fun (n, r) => (-(n : Int), r)
  | '+' :: rest => (number? rest.length rest).map fun (n, r) => ((n : Int), r)
  | rest => (number? 4 rest).map fun (n, r) => ((n : Int), r)

/-- The part of a second after a point, in nanoseconds; digits past the ninth are dropped. -/
def fraction? (cs : List Char) : Option (Nat × List Char) :=
  match cs with
  | '.' :: rest =>
    let ds := leadingDigits 9 rest
    if ds.isEmpty then none
    else some (valueOfDigits ds * Nat.pow 10 (9 - ds.length), (rest.drop ds.length).dropWhile Char.isDigit)
  | _ => some (0, cs)

/-- Hours and minutes of an offset, with colons and blanks between them. -/
def offsetSize? : List Char → Option (Int × List Char)
  | a :: b :: rest =>
    if a.isDigit && b.isDigit then
      match rest.dropWhile fun c => c = ':' || isBlank c with
      | c :: d :: rest =>
        if '0' ≤ c && c ≤ '5' && d.isDigit then
          some (valueOfDigits [a, b] * 60 + valueOfDigits [c, d], rest)
        else none
      | _ => none
    else none
  | _ => none

/-- The distance from universal time in minutes: `Z`, `UTC` in any case, or a sign with hours and
minutes. -/
def offset? (cs : List Char) : Option (Int × List Char) :=
  if (cs.take 3).map Char.toLower = ['u', 't', 'c'] then some (0, cs.drop 3)
  else
    match cs with
    | 'Z' :: rest | 'z' :: rest => some (0, rest)
    | '+' :: rest => offsetSize? rest
    | '-' :: rest | '−' :: rest => (offsetSize? rest).map fun (m, r) => (-m, r)
    | _ => none

/-- Read a date-time with its offset. Blanks may stand around the parts, and offsets stay below
one day. -/
def ofText? (s : String) : Option Timestamp := do
  let (year, cs) ← year? s.toList
  let cs ← mark? '-' cs
  let (month, cs) ← field? cs
  let cs ← mark? '-' cs
  let (day, cs) ← field? cs
  let cs ← match cs with
    | 'T' :: rest | 't' :: rest | ' ' :: rest => some rest
    | _ => none
  let (hour, cs) ← field? cs
  let cs ← mark? ':' cs
  let (minute, cs) ← field? cs
  let cs ← mark? ':' cs
  let (second, cs) ← field? cs
  let (nanos, cs) ← fraction? cs
  let (offset, cs) ← offset? (trimFront cs)
  if !cs.all isBlank || 1440 ≤ offset.natAbs then none
  let shown ← of? ⟨year, month, day⟩ hour minute second nanos
  shown.rebase offset

/-- A year in four digits, or with a sign if it is before 0 or after 9999. -/
def renderYear (y : Int) : List Char :=
  if 0 ≤ y ∧ y ≤ 9999 then padded 4 y.toNat
  else (if y < 0 then '-' else '+') :: padded 4 y.natAbs

/-- No part of a second, or thousandths, millionths or billionths: the fewest that hold it. -/
def renderFraction (n : Nat) : List Char :=
  if n = 0 then []
  else if n % 1000000 = 0 then '.' :: padded 3 (n / 1000000)
  else if n % 1000 = 0 then '.' :: padded 6 (n / 1000)
  else '.' :: padded 9 n

/-- The written form, in universal time. -/
def render (t : Timestamp) : List Char :=
  renderYear t.date.year ++ '-' :: padded 2 t.date.month ++ '-' :: padded 2 t.date.day ++
    'T' :: padded 2 t.hour ++ ':' :: padded 2 t.minute ++ ':' :: padded 2 t.second ++
    renderFraction t.nanos ++ ['Z']

def text (t : Timestamp) : String := String.ofList (render t)

end Timestamp

end ScoreRelay.Time
