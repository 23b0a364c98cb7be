import ScoreRelay.Toml.Key

/-! TOML values as texts spell them. -/
namespace ScoreRelay.Toml

variable {cs rest : List Char}

/-- Arrays and inline tables may be nested this deep. -/
def maxLevels : Nat := 80

/-- These characters end a value without quotes or brackets. -/
def isStop (c : Char) : Bool :=
  isSpace c || ['\n', '\r', '#', ',', '=', '[', ']', '\x7b', '\x7d'].contains c

/-- A value without quotes or brackets goes on here, after spaces. -/
def goesOn : List Char → Bool
  | c :: _ => !isStop c && c ≠ '.' && c ≠ '"' && c ≠ '\''
  | [] => false

/-- The characters of a value without quotes or brackets. It may have spaces within, as a date does
before a time. -/
def bareValue (cs : List Char) : List Char × List Char :=
  let w := cs.takeWhile (!isStop ·)
  match _ : cs.dropWhile (!isStop ·) with
  | c :: rest =>
    if isSpace c && goesOn (skipSpaces rest) then
      let (more, left) := bareValue (skipSpaces rest)
      (w ++ c :: rest.takeWhile isSpace ++ more, left)
    else (w, c :: rest)
  | [] => (w, [])
termination_by cs.length
decreasing_by
  have hle := (List.dropWhile_sublist (l := cs) (!isStop ·)).length_le
  have := length_skipSpaces_le rest
  simp_all
  omega

/-- A table in braces takes no more keys. -/
def close : Toml → Toml
  | .table _ ms => .table .closed ms
  | v => v

/-- What is left of `cs` after a part of it, which is never empty. -/
def after? (cs rest : List Char) : Option { r : List Char // r.length < cs.length } :=
  if h : rest.length < cs.length then some ⟨rest, h⟩ else none

mutual

/-- A value, with `levels` arrays or inline tables still allowed inside one another. -/
def value (levels : Nat) (cs : List Char) : Option (Toml × List Char) :=
  match levels, cs with
  | l + 1, '[' :: rest => items l [] rest
  | l + 1, '\x7b' :: rest => members l (.table .header []) rest
  | 0, '[' :: _ | 0, '\x7b' :: _ => none
  | _, '"' :: _ | _, '\'' :: _ => (string? cs).map fun (s, rest) => (.string s, rest)
  | _, _ =>
    let (w, rest) := bareValue cs
    (scalar? w).map (·, rest)
termination_by (levels, 2 * cs.length)
decreasing_by
  · exact Prod.Lex.left _ _ (Nat.lt_succ_self l)
  · exact Prod.Lex.left _ _ (Nat.lt_succ_self l)

/-- The rest of an array; the items found are in reverse. -/
def items (levels : Nat) (found : List Toml) (cs : List Char) : Option (Toml × List Char) :=
  match _ : skipLines cs with
  | none => none
  | some (']' :: rest) => some (.array found.reverse, rest)
  | some front => do
    let (v, rest) ← value levels front
    let ⟨rest, _⟩ ← after? front rest
    match _ : skipLines rest with
    | some (',' :: rest) => items levels (v :: found) rest
    | some (']' :: rest) => some (.array (v :: found).reverse, rest)
    | _ => none
termination_by (levels, 2 * cs.length + 1)
decreasing_by
  · have := length_skipLines_le ‹skipLines cs = some front›
    exact Prod.Lex.right _ (by omega)
  · have := length_skipLines_le ‹skipLines cs = some front›
    have hle := length_skipLines_le ‹skipLines _ = some (',' :: _)›
    simp only [List.length_cons] at hle
    exact Prod.Lex.right _ (by omega)

/-- The rest of an inline table, with the table found so far. -/
def members (levels : Nat) (found : Toml) (cs : List Char) : Option (Toml × List Char) :=
  match _ : skipLines cs with
  | none => none
  | some ('\x7d' :: rest) => some (close found, rest)
  | some front => do
    let (path, key, rest) ← dottedKey front
    let rest ← expect? '=' (← skipLines rest)
    let ⟨rest, _⟩ ← after? front (← skipLines rest)
    let (v, rest') ← value levels rest
    let ⟨rest, _⟩ ← after? rest rest'
    let found ← assign path key v found
    match _ : skipLines rest with
    | some (',' :: rest) => members levels found rest
    | some ('\x7d' :: rest) => some (close found, rest)
    | _ => none
termination_by (levels, 2 * cs.length + 1)
decreasing_by
  · have := length_skipLines_le ‹skipLines cs = some front›
    exact Prod.Lex.right _ (by omega)
  · have := length_skipLines_le ‹skipLines cs = some front›
    have hle := length_skipLines_le ‹skipLines _ = some (',' :: _)›
    simp only [List.length_cons] at hle
    exact Prod.Lex.right _ (by omega)

end

end ScoreRelay.Toml
