/-! White space in the sense of the Unicode property `White_Space`, and cutting it from the ends of a text. -/
namespace ScoreRelay.Text

/-- The code points of the Unicode property `White_Space`. -/
def isBlank (c : Char) : Bool :=
  let n := c.toNat
  (9 ≤ n && n ≤ 13) || n == 32 || n == 0x85 || n == 0xA0 || n == 0x1680 ||
    (0x2000 ≤ n && n ≤ 0x200A) || n == 0x2028 || n == 0x2029 || n == 0x202F || n == 0x205F ||
    n == 0x3000

/-- Drop the blanks in front. -/
def trimFront (cs : List Char) : List Char := cs.dropWhile isBlank

/-- Drop the blanks at both ends. -/
def trimChars (cs : List Char) : List Char := (trimFront (trimFront cs).reverse).reverse

/-- Drop the blanks at both ends; blanks inside stay. -/
def trim (s : String) : String := String.ofList (trimChars s.toList)

/-- The text holds nothing but blanks. -/
def allBlank (s : String) : Bool := s.toList.all isBlank

theorem trimFront_idem (cs : List Char) : trimFront (trimFront cs) = trimFront cs := by
  induction cs with
  | nil => rfl
  | cons c cs ih =>
    by_cases h : isBlank c = true <;> simp_all [trimFront]

end ScoreRelay.Text
