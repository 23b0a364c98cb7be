/-! What may stand between the parts of a TOML text: spaces, comments and line ends. Each function
takes characters from the front of a text and returns what is left of it. -/
namespace ScoreRelay.Toml

variable {cs rest : List Char}

def isSpace (c : Char) : Bool := c = ' ' || c = '\t'

def skipSpaces (cs : List Char) : List Char := cs.dropWhile isSpace

/-- Control characters other than the tab stand nowhere in a text. -/
def isControl (c : Char) : Bool := (c.toNat < 32 && c != '\t') || c.toNat = 127

/-- Leave out a line end. -/
def newline? : List Char → Option (List Char)
  | '\n' :: cs => some cs
  | '\r' :: '\n' :: cs => some cs
  | _ => none

/-- Leave out a comment, if there is one, up to its line end. -/
def skipComment : List Char → Option (List Char)
  | '#' :: cs =>
    let rest := cs.dropWhile fun c => !isControl c
    match rest with
    | [] => some []
    | _ => if (newline? rest).isSome then some rest else none
  | cs => some cs

theorem length_skipSpaces_le (cs : List Char) : (skipSpaces cs).length ≤ cs.length :=
  (List.dropWhile_sublist _).length_le

theorem length_newline?_lt (h : newline? cs = some rest) : rest.length < cs.length := by
  unfold newline? at h
  split at h <;> cases h <;> simp only [List.length_cons] <;> omega

theorem length_skipComment_le (h : skipComment cs = some rest) : rest.length ≤ cs.length := by
  unfold skipComment at h
  split at h
  · rename_i tail
    have hle := (List.dropWhile_sublist (l := tail) fun c => !isControl c).length_le
    simp only at h
    split at h
    · cases h
      simp
    · split at h <;> simp_all
      omega
  · simp_all

/-- Leave out spaces, comments and line ends. -/
def skipLines (cs : List Char) : Option (List Char) :=
  match _ : skipComment (skipSpaces cs) with
  | none => none
  | some front =>
    match _ : newline? front with
    | some rest => skipLines rest
    | none => some front
termination_by cs.length
decreasing_by
  have := length_newline?_lt ‹newline? front = some rest›
  have := length_skipComment_le ‹skipComment _ = some front›
  have := length_skipSpaces_le cs
  omega

theorem length_skipLines_le (h : skipLines cs = some rest) : rest.length ≤ cs.length := by
  fun_induction skipLines cs with
  | case1 => simp_all
  | case2 cs front h₁ rest' h₂ ih =>
    have := ih h
    have := length_newline?_lt h₂
    have := length_skipComment_le h₁
    have := length_skipSpaces_le cs
    omega
  | case3 cs front h₁ h₂ =>
    have := length_skipComment_le h₁
    have := length_skipSpaces_le cs
    simp_all
    omega

/-- What is left after the end of a line that holds nothing more. -/
def endLine (cs : List Char) : Option (List Char) := do
  match ← skipComment (skipSpaces cs) with
  | [] => some []
  | cs => newline? cs

end ScoreRelay.Toml
