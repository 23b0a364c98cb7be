import ScoreRelay.Time.Timestamp

/-! Instants from a count of seconds since the beginning of 1970. -/
namespace ScoreRelay.Time

/-- The day that many days after 1 January 1970. Years are counted from March, so that the leap day
is the last day of a year. -/
def Date.ofDays (n : Int) : Date :=
  let z := n + 719468
  let era := z / 146097
  let doe := (z % 146097).toNat
  let yoe := (doe - doe / 1460 + doe / 36524 - doe / 146096) / 365
  let doy := doe - (365 * yoe + yoe / 4 - yoe / 100)
  let mp := (5 * doy + 2) / 153
  let month := if mp < 10 then mp + 3 else mp - 9
  ⟨yoe + era * 400 + (if month ≤ 2 then 1 else 0), month, doy - (153 * mp + 2) / 5 + 1⟩

/-- The instant that many seconds after the beginning of 1970. -/
def Timestamp.ofUnix? (seconds : Int) (nanos : Nat) : Option Timestamp :=
  let rest := (seconds % 86400).toNat
  of? (.ofDays (seconds / 86400)) (rest / 3600) (rest / 60 % 60) (rest % 60) nanos

example : (Timestamp.ofUnix? 1714979289 0).map Timestamp.render =
    some "2024-05-06T07:08:09Z".toList := by decide +kernel

end ScoreRelay.Time
