import ScoreRelay.Toml.Blank
import ScoreRelay.Toml.Scalar

/-! TOML strings in their four forms: with escapes or without, on one line or in triple quotes. -/
namespace ScoreRelay.Toml

variable {cs rest : List Char}

/-- The character with the code point written in hexadecimal digits. -/
def codePoint? (ds : List Char) : Option Char :=
  if ds.all (radixDigit 16) then
    let n := radixValue 16 ds
    if h : n.isValidChar then some (Char.ofNatAux n h) else none
  else none

/-- The character of an escape and what follows it, from after the backslash. -/
def escape? : List Char → Option (Char × List Char)
  | 'b' :: cs => some ('\x08', cs)
  | 't' :: cs => some ('\t', cs)
  | 'n' :: cs => some ('\n', cs)
  | 'f' :: cs => some ('\x0c', cs)
  | 'r' :: cs => some ('\r', cs)
  | 'e' :: cs => some ('\x1b', cs)
  | '"' :: cs => some ('"', cs)
  | '\\' :: cs => some ('\\', cs)
  | 'x' :: cs => numeric 2 cs
  | 'u' :: cs => numeric 4 cs
  | 'U' :: cs => numeric 8 cs
  | _ => none
where
  numeric (n : Nat) (cs : List Char) : Option (Char × List Char) :=
    if (cs.take n).length = n then (codePoint? (cs.take n)).map (·, cs.drop n) else none

theorem length_escape?_lt {c : Char} (h : escape? cs = some (c, rest)) : rest.length < cs.length := by
  have numeric {n : Nat} {ds : List Char} (h : escape?.numeric n ds = some (c, rest)) :
      rest.length ≤ ds.length := by
    unfold escape?.numeric at h
    split at h <;> simp_all
    obtain ⟨_, _, _, rfl⟩ := h
    simp
  unfold escape? at h
  split at h <;> simp_all <;> first | omega | (have hn := numeric h; omega)

/-- The rest of a string on one line, with escapes if `escapes` is set. `found` is in reverse. -/
def lineString (escapes : Bool) (quote : Char) (found : List Char) :
    List Char → Option (String × List Char)
  | [] => none
  | c :: cs =>
    if c = quote then some (String.ofList found.reverse, cs)
    else if escapes && c = '\\' then
      match _ : escape? cs with
      | some (d, rest) => lineString escapes quote (d :: found) rest
      | none => none
    else if isControl c then none
    else lineString escapes quote (c :: found) cs
termination_by cs => cs.length
decreasing_by
  · have := length_escape?_lt ‹escape? cs = some (d, rest)›
    simp
    omega
  · simp

theorem length_lineString_lt {escapes : Bool} {quote : Char} {found : List Char} {s : String}
    (h : lineString escapes quote found cs = some (s, rest)) : rest.length < cs.length := by
  fun_induction lineString escapes quote found cs with
  | case1 => simp at h
  | case2 => simp_all
  | case3 found c cs _ _ d rest' hd ih =>
    have := ih h
    have := length_escape?_lt hd
    simp
    omega
  | case4 => simp at h
  | case5 => simp at h
  | case6 found c cs _ _ _ ih =>
    have := ih h
    simp
    omega

/-- Leave out spaces and line ends. -/
def skipEmptyLines (cs : List Char) : List Char :=
  match _ : newline? (skipSpaces cs) with
  | some rest => skipEmptyLines rest
  | none => skipSpaces cs
termination_by cs.length
decreasing_by
  have := length_newline?_lt ‹newline? _ = some rest›
  have := length_skipSpaces_le cs
  omega

theorem length_skipEmptyLines_le (cs : List Char) : (skipEmptyLines cs).length ≤ cs.length := by
  fun_induction skipEmptyLines cs with
  | case1 cs rest h ih =>
    have := length_newline?_lt h
    have := length_skipSpaces_le cs
    omega
  | case2 cs => exact length_skipSpaces_le cs

/-- A backslash at the end of a line joins it with the next text; this is what follows the join. -/
def joined? (cs : List Char) : Option (List Char) :=
  (newline? (skipSpaces cs)).map skipEmptyLines

theorem length_joined?_lt (h : joined? cs = some rest) : rest.length < cs.length := by
  obtain ⟨front, hf, rfl⟩ := Option.map_eq_some_iff.1 h
  have := length_newline?_lt hf
  have := length_skipSpaces_le cs
  have := length_skipEmptyLines_le front
  omega

/-- The rest of a string in triple quotes. Up to two quotes may stand before the closing three. -/
def blockString (escapes : Bool) (quote : Char) (found : List Char) :
    List Char → Option (String × List Char)
  | [] => none
  | c :: cs =>
    if c = quote ∧ cs.take 2 = [quote, quote] then
      let extra := ((cs.drop 2).take 2).takeWhile (· = quote)
      some (String.ofList (extra ++ found).reverse, cs.drop (2 + extra.length))
    else if escapes && c = '\\' then
      match _ : joined? cs with
      | some rest => blockString escapes quote found rest
      | none =>
        match _ : escape? cs with
        | some (d, rest) => blockString escapes quote (d :: found) rest
        | none => none
    else if c = '\n' ∨ (c = '\r' ∧ cs.head? = some '\n') then blockString escapes quote (c :: found) cs
    else if isControl c then none
    else blockString escapes quote (c :: found) cs
termination_by cs => cs.length
decreasing_by
  · have := length_joined?_lt ‹joined? cs = some rest›
    simp
    omega
  · have := length_escape?_lt ‹escape? cs = some (d, rest)›
    simp
    omega
  · simp
  · simp

/-- A string in any of its four forms. -/
def string? : List Char → Option (String × List Char)
  | '"' :: '"' :: '"' :: cs => blockString true '"' [] ((newline? cs).getD cs)
  | '\'' :: '\'' :: '\'' :: cs => blockString false '\'' [] ((newline? cs).getD cs)
  | '"' :: cs => lineString true '"' [] cs
  | '\'' :: cs => lineString false '\'' [] cs
  | _ => none

end ScoreRelay.Toml
