import ScoreRelay.Text.Digits

/-! Numbers as JSON writes them, the integers among them, and those too large for a double. -/
namespace ScoreRelay.Json

/-- The written form of a number: sign, digits before and after the point, and the exponent with
its sign. -/
structure Literal where
  negative : Bool
  whole : List Char
  fraction : List Char
  exponent : Option (Bool × List Char)
  deriving DecidableEq, Repr

namespace Literal

/-- The plain form of an integer. -/
def ofInt (i : Int) : Literal := ⟨i < 0, Nat.toDigits 10 i.natAbs, [], none⟩

def render (l : Literal) : List Char :=
  (if l.negative then ['-'] else []) ++ l.whole ++
    (if l.fraction.isEmpty then [] else '.' :: l.fraction) ++
    match l.exponent with
    | none => []
    | some (negative, digits) => 'e' :: ((if negative then ['-'] else []) ++ digits)

/-- The integer written, if it is written as one and fits 64 bits: unsigned up to `2^64 - 1`,
negative down to `-2^63`. A negative zero is no integer. -/
def int? (l : Literal) : Option Int :=
  if l.fraction.isEmpty && l.exponent.isNone then
    let n := Text.valueOfDigits l.whole
    if l.negative then
      if 0 < n ∧ n ≤ Nat.pow 2 63 then some (-(n : Int)) else none
    else if n < UInt64.size then some n else none
  else none

/-- Append digits to a number while the result fits 64 bits. The second part counts the digits
that found no room. -/
def absorb (n : Nat) : List Char → Nat × Nat
  | [] => (n, 0)
  | c :: cs =>
    let m := n * 10 + (c.toNat - 48)
    if m < UInt64.size then absorb m cs else (n, (c :: cs).length)

/-- The nearest natural number with at most 53 significant bits, ties to the even one. -/
def roundBits (n : Nat) : Nat :=
  let unit := Nat.pow 2 (n.log2 - 52)
  let q := n / unit
  let r := n % unit
  if unit < 2 * r ∨ (2 * r = unit ∧ q % 2 = 1) then (q + 1) * unit else q * unit

/-- The smallest natural number that no longer rounds to a finite double. -/
def overflowBound : Nat := Nat.pow 2 1024 - Nat.pow 2 970

/-- The number does not fit a double: its leading digits and its power of ten are each rounded to
53 bits, and the product of the two is out of range. -/
def overflows (l : Literal) : Bool :=
  let (n, dropped) := absorb 0 l.whole
  let (m, skipped) := absorb n l.fraction
  let base : Int := (dropped : Int) - ((l.fraction.length - skipped : Nat) : Int)
  match l.exponent with
  | none => exceeds m base
  | some (negative, digits) =>
    let e := Text.valueOfDigits digits
    if Nat.pow 2 31 ≤ e then m != 0 && !negative
    else exceeds m (if negative then base - e else base + e)
where
  exceeds (m : Nat) (e : Int) : Bool :=
    m != 0 && 0 ≤ e && (308 < e || overflowBound ≤ roundBits m * roundBits (Nat.pow 10 e.toNat))

end Literal

end ScoreRelay.Json
