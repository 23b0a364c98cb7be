/-! Identifiers that sort by the time they were made: a tag, an underscore, and a version 7 UUID in 32
hexadecimal digits. -/
namespace ScoreRelay.Ident

/-- Hexadecimal digits in small letters, filled up with zeros in front. -/
def hex (width n : Nat) : List Char :=
  let ds := Nat.toDigits 16 n
  List.replicate (width - ds.length) '0' ++ ds

/-- A source of identifiers: milliseconds since 1970, and a count of 74 bits that goes up by one. -/
structure Source where
  millis : Nat
  count : Nat
  deriving DecidableEq, Repr

/-- The digits of a version 7 UUID: 48 bits of time, then version, variant and count. -/
def Source.digits (s : Source) : List Char :=
  hex 12 (s.millis % Nat.pow 2 48) ++ '7' :: hex 3 (s.count / Nat.pow 2 62 % Nat.pow 2 12) ++
    hex 16 (Nat.pow 2 63 + s.count % Nat.pow 2 62)

/-- The next identifier with a tag. -/
def Source.next (s : Source) (tag : String) : String × Source :=
  (tag ++ "_" ++ String.ofList s.digits, { s with count := s.count + 1 })

/-- The next `n` identifiers, oldest first. -/
def Source.take (tag : String) : Nat → Source → List String
  | 0, _ => []
  | n + 1, s => (s.next tag).1 :: take tag n (s.next tag).2

def isHex (c : Char) : Bool := c.isDigit || ('a' ≤ c && c ≤ 'f')

/-- The text is a tag with the digits of a version 7 UUID. -/
def wellFormed (tag text : String) : Bool :=
  let front := tag.toList ++ ['_']
  let ds := text.toList.drop front.length
  text.toList.take front.length = front && ds.length = 32 && ds.all isHex && ds[12]? = some '7' &&
    ((ds[16]?).map fun c => ['8', '9', 'a', 'b'].contains c).getD false

/-- Each text is less than the next. -/
def increasing : List String → Bool
  | a :: b :: rest => a < b && increasing (b :: rest)
  | _ => true

/-- The tag of caches. -/
def cacheTag : String := "nsc"

/-- The tag of messages. -/
def messageTag : String := "msg"

end ScoreRelay.Ident
