/-! Rows of decimal digits: read from the front of a text, and written with a least width. -/
namespace ScoreRelay.Text

/-- The number that a row of digits stands for. -/
def valueOfDigits (cs : List Char) : Nat := cs.foldl (fun n c => n * 10 + (c.toNat - 48)) 0

/-- The digits in front, at most `most` of them. -/
def leadingDigits : Nat → List Char → List Char
  | 0, _ => []
  | _, [] => []
  | n + 1, c :: cs => if c.isDigit then c :: leadingDigits n cs else []

/-- A number of one to `most` digits and what follows it. -/
def number? (most : Nat) (cs : List Char) : Option (Nat × List Char) :=
  let ds := leadingDigits most cs
  if ds.isEmpty then none else some (valueOfDigits ds, cs.drop ds.length)

/-- Decimal digits, filled up with zeros in front. -/
def padded (width n : Nat) : List Char :=
  let ds := Nat.toDigits 10 n
  List.replicate (width - ds.length) '0' ++ ds

end ScoreRelay.Text
