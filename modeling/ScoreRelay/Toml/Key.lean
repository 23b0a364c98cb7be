import ScoreRelay.Toml.Quoted

/-! TOML keys: parts that are bare or quoted on one line, with dots between them. -/
namespace ScoreRelay.Toml

variable {cs rest : List Char}

def isBare (c : Char) : Bool := c.isAlphanum || c = '_' || c = '-'

/-- One part of a key. -/
def simpleKey : List Char → Option (String × List Char)
  | '"' :: cs => lineString true '"' [] cs
  | '\'' :: cs => lineString false '\'' [] cs
  | cs =>
    match cs.takeWhile isBare with
    | [] => none
    | k => some (String.ofList k, cs.drop k.length)

theorem length_simpleKey_lt {k : String} (h : simpleKey cs = some (k, rest)) :
    rest.length < cs.length := by
  unfold simpleKey at h
  split at h
  · have := length_lineString_lt h
    simp
    omega
  · have := length_lineString_lt h
    simp
    omega
  · have hle := (List.takeWhile_sublist (l := cs) isBare).length_le
    split at h
    · simp at h
    · rename_i hne
      have hpos : 0 < (cs.takeWhile isBare).length := List.length_pos_iff.2 hne
      simp only [Option.some.injEq, Prod.mk.injEq] at h
      rw [← h.2, List.length_drop]
      omega

/-- The parts of a key: those before the last one, and the last. -/
def keyParts (cs : List Char) : Option (List String × String × List Char) :=
  match _ : simpleKey cs with
  | none => none
  | some (k, rest) =>
    match _ : skipSpaces rest with
    | '.' :: more => do
      let (ks, last, rest) ← keyParts (skipSpaces more)
      return (k :: ks, last, rest)
    | rest => some ([], k, rest)
termination_by cs.length
decreasing_by
  have := length_simpleKey_lt ‹simpleKey cs = some (k, rest)›
  have hle := length_skipSpaces_le rest
  have := length_skipSpaces_le more
  rw [‹skipSpaces rest = '.' :: more›] at hle
  simp at hle
  omega

theorem length_keyParts_lt {ks : List String} {last : String}
    (h : keyParts cs = some (ks, last, rest)) : rest.length < cs.length := by
  fun_induction keyParts cs generalizing ks last with
  | case1 => simp at h
  | case2 cs k rest' hk more hdot ih =>
    obtain ⟨⟨ks', last', rest''⟩, hd, heq⟩ := Option.bind_eq_some_iff.1 h
    cases heq
    have := ih hd
    have := length_simpleKey_lt hk
    have hle := length_skipSpaces_le rest'
    have := length_skipSpaces_le more
    rw [hdot] at hle
    simp_all
    omega
  | case3 cs k rest' hk =>
    have := length_simpleKey_lt hk
    have := length_skipSpaces_le rest'
    simp_all
    omega

/-- A key has at most this many parts. -/
def maxParts : Nat := 80

/-- A key: the parts before the last one, and the last. -/
def dottedKey (cs : List Char) : Option (List String × String × List Char) := do
  let (path, last, rest) ← keyParts cs
  if path.length < maxParts then some (path, last, rest) else none

end ScoreRelay.Toml
