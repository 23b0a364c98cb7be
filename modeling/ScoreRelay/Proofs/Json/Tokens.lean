import Mathlib.Data.List.Basic
import ScoreRelay.Json.Printer
import ScoreRelay.Json.Reader
import ScoreRelay.Proofs.Json.Value

/-! The text of a value is made of the tokens of the value. A number ends where the next mark stands, and
everything else ends of itself. -/
namespace ScoreRelay.Json

variable {found : List Token} {rest cs : List Char} {f : Figures} {n : Nat}

/-- No number goes on here: the text ends, or a mark comes that stands behind values. -/
def Ends (rest : List Char) : Prop := ∀ c ∈ rest.head?, c = ',' ∨ c = ']' ∨ c = '\x7d'

@[simp] theorem ends_nil : Ends [] := by simp [Ends]

@[simp] theorem ends_comma : Ends (',' :: rest) := by simp [Ends]

@[simp] theorem ends_array : Ends (']' :: rest) := by simp [Ends]

@[simp] theorem ends_object : Ends ('\x7d' :: rest) := by simp [Ends]

section Numbers

theorem toDigits_head (h : 0 < n) : ∃ d ds, Nat.toDigits 10 n = d :: ds ∧ d ≠ '0' := by
  induction n using Nat.strongRecOn with
  | ind n ih =>
    by_cases hn : n < 10
    · refine ⟨n.digitChar, [], Nat.toDigits_of_lt_base hn, ?_⟩
      have hall : ∀ m < 10, 0 < m → m.digitChar ≠ '0' := by decide
      exact hall n hn h
    · obtain ⟨d, ds, hd, hz⟩ := ih (n / 10) (by omega) (by omega)
      refine ⟨d, ds ++ [(n % 10).digitChar], ?_, hz⟩
      rw [Nat.toDigits_of_base_le (by omega) (by omega), hd, List.cons_append]

theorem tokensFrom_digits {ds : List Char} (h : ∀ c ∈ ds, c.isDigit = true) :
    tokensFrom (.number .whole f) found (ds ++ rest) =
      tokensFrom (.number .whole { f with whole := ds.reverse ++ f.whole }) found rest := by
  induction ds generalizing f with
  | nil => rfl
  | cons d ds ih =>
    obtain ⟨hd, hds⟩ := List.forall_mem_cons.mp h
    have hs : Scan.step (.number .whole f) d =
        some (.number .whole { f with whole := d :: f.whole }, []) := by
      simp [Scan.step, Figures.extend, hd]
    rw [List.cons_append, tokensFrom, hs]
    simpa using ih (f := { f with whole := d :: f.whole }) hds

/-- A number that may end is one where it ends. -/
theorem tokensFrom_number {p : NumberPhase} (hp : p = .zero ∨ p = .whole) (hr : Ends rest) :
    tokensFrom (.number p f) found rest = tokensFrom .idle (.number f.literal :: found) rest := by
  cases rest with
  | nil => rcases hp with rfl | rfl <;> simp [tokensFrom, Scan.finish, NumberPhase.complete]
  | cons c rest =>
    rcases hp with rfl | rfl <;> rcases hr c rfl with rfl | rfl | rfl <;> rfl

/-- Where a number may begin: its first digit comes next, and the figures hold what is known already. -/
def Begins (s : Scan) (f : Figures) : Prop :=
  Scan.step s '0' = some (.number .zero { f with whole := ['0'] }, []) ∧
    ∀ d, d.isDigit = true → d ≠ '0' →
      Scan.step s d = some (.number .whole { f with whole := [d] }, [])

theorem begins_idle : Begins .idle {} := by
  refine ⟨rfl, fun d hd hz => ?_⟩
  simp only [Scan.step, Scan.start]
  split <;> simp_all

theorem begins_minus : Begins (.number .minus f) f := by
  refine ⟨rfl, fun d hd hz => ?_⟩
  simp [Scan.step, Figures.extend, hd, hz]

theorem tokensFrom_natural {s : Scan} (hs : Begins s f) (n : Nat) (hr : Ends rest) :
    tokensFrom s found (Nat.toDigits 10 n ++ rest) =
      tokensFrom .idle (.number { f with whole := (Nat.toDigits 10 n).reverse }.literal :: found)
        rest := by
  rcases Nat.eq_zero_or_pos n with rfl | hn
  · rw [Nat.toDigits_zero, List.singleton_append, tokensFrom, hs.1]
    exact tokensFrom_number (Or.inl rfl) hr
  · obtain ⟨d, ds, hd, hz⟩ := toDigits_head hn
    have hall : ∀ c ∈ d :: ds, c.isDigit = true := fun c hc =>
      Nat.isDigit_of_mem_toDigits (by omega) (by omega) (hd ▸ hc)
    obtain ⟨hdigit, hds⟩ := List.forall_mem_cons.mp hall
    rw [hd, List.cons_append, tokensFrom, hs.2 d hdigit hz]
    simp only [List.reverse_nil, List.nil_append]
    rw [tokensFrom_digits hds, tokensFrom_number (Or.inr rfl) hr, List.reverse_cons]

theorem tokensFrom_int (i : Int) (hr : Ends rest) :
    tokensFrom .idle found ((Literal.ofInt i).render ++ rest) =
      tokensFrom .idle (.number (Literal.ofInt i) :: found) rest := by
  by_cases hi : i < 0
  · have he : (Literal.ofInt i).render = '-' :: Nat.toDigits 10 i.natAbs := by
      simp [Literal.render, Literal.ofInt, hi]
    have hs : Scan.step .idle '-' = some (.number .minus { negative := true }, []) := rfl
    rw [he, List.cons_append, tokensFrom, hs]
    simp only [List.reverse_nil, List.nil_append]
    rw [tokensFrom_natural begins_minus _ hr]
    simp [Figures.literal, Literal.ofInt, hi]
  · have he : (Literal.ofInt i).render = Nat.toDigits 10 i.natAbs := by
      simp [Literal.render, Literal.ofInt, hi]
    rw [he, tokensFrom_natural begins_idle _ hr]
    simp [Figures.literal, Literal.ofInt, hi]

end Numbers

section Strings

variable {chars : List Char}

theorem hexValue_hexDigit (hn : n < 16) : hexValue? (hexDigit n) = some n := by
  have hall : ∀ m < 16, hexValue? (hexDigit m) = some m := by decide
  exact hall n hn

/-- A numeric escape gives back its character, which is no half of a pair. -/
theorem tokensFrom_unit {c : Char} (hc : c.toNat < 32) :
    tokensFrom (.string ⟨chars, none, true⟩) found
        ('\\' :: 'u' :: '0' :: '0' :: hexDigit (c.toNat / 16) :: hexDigit (c.toNat % 16) :: rest) =
      tokensFrom (.string ⟨c :: chars, none, true⟩) found rest := by
  have hhigh : Scan.step (.unit ⟨chars, none, true⟩ 2 0) (hexDigit (c.toNat / 16)) =
      some (.unit ⟨chars, none, true⟩ 1 (c.toNat / 16), []) := by
    simp [Scan.step, hexValue_hexDigit (show c.toNat / 16 < 16 by omega)]
  have hlow : Scan.step (.unit ⟨chars, none, true⟩ 1 (c.toNat / 16)) (hexDigit (c.toNat % 16)) =
      some (.string ⟨c :: chars, none, true⟩, []) := by
    have hv : c.toNat / 16 * 16 + c.toNat % 16 = c.toNat := by omega
    have hs : ¬ 55296 ≤ c.toNat := by omega
    have hs' : ¬ 56320 ≤ c.toNat := by omega
    simp [Scan.step, hexValue_hexDigit (show c.toNat % 16 < 16 by omega), hv, Letters.unit,
      Letters.char, hs, hs']
  change tokensFrom (.unit ⟨chars, none, true⟩ 2 0) found (_ :: _ :: rest) = _
  rw [tokensFrom, hhigh]
  change tokensFrom (.unit ⟨chars, none, true⟩ 1 (c.toNat / 16)) found (_ :: rest) = _
  rw [tokensFrom, hlow]
  rfl

/-- A character is written as a letter that names it, as its number, or as it is. -/
theorem escape_cases (c : Char) :
    (∃ d, escape c = ['\\', d] ∧ d ≠ 'u' ∧ unescape? d = some c) ∨
    (c.toNat < 32 ∧ escape c =
      ['\\', 'u', '0', '0', hexDigit (c.toNat / 16), hexDigit (c.toNat % 16)]) ∨
    (c ≠ '"' ∧ c ≠ '\\' ∧ ¬ c.toNat < 32 ∧ escape c = [c]) := by
  unfold escape
  iterate 7
    split
    · subst_vars
      exact Or.inl ⟨_, rfl, by decide, rfl⟩
  split
  · rename_i hc
    exact Or.inr (Or.inl ⟨hc, rfl⟩)
  · rename_i hq hb _ _ _ _ _ hc
    exact Or.inr (Or.inr ⟨hq, hb, hc, rfl⟩)

theorem tokensFrom_escape (c : Char) :
    tokensFrom (.string ⟨chars, none, true⟩) found (escape c ++ rest) =
      tokensFrom (.string ⟨c :: chars, none, true⟩) found rest := by
  rcases escape_cases c with ⟨d, he, hu, hd⟩ | ⟨hc, he⟩ | ⟨hq, hb, hc, he⟩ <;> rw [he]
  · simp [tokensFrom, Scan.step, hu, hd, Letters.char]
  · exact tokensFrom_unit hc
  · simp [tokensFrom, Scan.step, Letters.char, hq, hb, hc]

theorem tokensFrom_letters (cs : List Char) :
    tokensFrom (.string ⟨chars, none, true⟩) found (cs.flatMap escape ++ '"' :: rest) =
      tokensFrom .idle (.string (some (String.ofList (chars.reverse ++ cs))) :: found) rest := by
  induction cs generalizing chars with
  | nil => simp [tokensFrom, Scan.step, Letters.close]
  | cons c cs ih =>
    rw [List.flatMap_cons, List.append_assoc, tokensFrom_escape, ih]
    simp

theorem tokensFrom_quoted (s : String) :
    tokensFrom .idle found (quoted s ++ rest) =
      tokensFrom .idle (.string (some s) :: found) rest := by
  have hq : quoted s ++ rest = '"' :: (s.toList.flatMap escape ++ '"' :: rest) := by
    simp [quoted]
  rw [hq]
  change tokensFrom (.string ⟨[], none, true⟩) found _ = _
  rw [tokensFrom_letters]
  simp

theorem tokensFrom_key (k : String) : tokensFrom .idle found (quoted k ++ ':' :: rest) =
    tokensFrom .idle (.colon :: .string (some k) :: found) rest :=
  tokensFrom_quoted k

end Strings

mutual

/-- The tokens of a value. -/
def tokens : Json → List Token
  | .null => [.null]
  | .bool b => [.bool b]
  | .int i => [.number (Literal.ofInt i)]
  | .real l => [.number l]
  | .string s => [.string (some s)]
  | .array items => .beginArray :: (itemTokens items ++ [.endArray])
  | .object members => .beginObject :: (memberTokens members ++ [.endObject])

def itemTokens : List Json → List Token
  | [] => []
  | [v] => tokens v
  | v :: w :: vs => tokens v ++ .comma :: itemTokens (w :: vs)

def memberTokens : List (String × Json) → List Token
  | [] => []
  | [(k, v)] => .string (some k) :: .colon :: tokens v
  | (k, v) :: m :: ms =>
    .string (some k) :: .colon :: (tokens v ++ .comma :: memberTokens (m :: ms))

end

/-- The text of a value is read as its tokens, whatever comes behind it where values end. -/
def Legible (v : Json) : Prop := ∀ found rest, Ends rest →
  tokensFrom .idle found (render v ++ rest) = tokensFrom .idle (v.tokens.reverse ++ found) rest

theorem legible_items {items : List Json} (h : ∀ v ∈ items, v.Legible) (found : List Token)
    (rest : List Char) : tokensFrom .idle found (renderItems items ++ ']' :: rest) =
      tokensFrom .idle ((itemTokens items).reverse ++ found) (']' :: rest) := by
  induction items generalizing found with
  | nil => rfl
  | cons v items ih =>
    obtain ⟨hv, hs⟩ := List.forall_mem_cons.mp h
    cases items with
    | nil => exact hv found _ ends_array
    | cons w vs =>
      rw [renderItems, itemTokens, List.append_assoc, List.cons_append, hv found _ ends_comma]
      change tokensFrom .idle (.comma :: (v.tokens.reverse ++ found)) _ = _
      rw [ih hs]
      simp

theorem legible_members {ms : List (String × Json)} (h : ∀ m ∈ ms, m.2.Legible)
    (found : List Token) (rest : List Char) :
    tokensFrom .idle found (renderMembers ms ++ '\x7d' :: rest) =
      tokensFrom .idle ((memberTokens ms).reverse ++ found) ('\x7d' :: rest) := by
  induction ms generalizing found with
  | nil => rfl
  | cons m ms ih =>
    obtain ⟨hm, hs⟩ := List.forall_mem_cons.mp h
    obtain ⟨k, v⟩ := m
    have hv : v.Legible := hm
    cases ms with
    | nil =>
      rw [renderMembers, memberTokens, List.append_assoc, List.cons_append, tokensFrom_key,
        hv _ _ ends_object]
      simp
    | cons m' ms =>
      rw [renderMembers, memberTokens, List.append_assoc, List.cons_append, tokensFrom_key,
        List.append_assoc, List.cons_append, hv _ _ ends_comma]
      change tokensFrom .idle (.comma :: _) _ = _
      rw [ih hs]
      simp

theorem legible_of_fits {v : Json} (h : v.Fits n) : v.Legible := by
  induction h with
  | null => intro found rest _; rfl
  | bool b => intro found rest _; cases b <;> rfl
  | int _ _ => intro found rest hr; exact tokensFrom_int _ hr
  | string s => intro found rest _; exact tokensFrom_quoted s
  | array _ ih =>
    intro found rest _
    change tokensFrom .idle (.beginArray :: found) (_ ++ [']'] ++ rest) = _
    rw [List.append_assoc]
    change tokensFrom .idle _ (_ ++ ']' :: rest) = _
    rw [legible_items ih]
    change tokensFrom .idle (.endArray :: _) rest = _
    simp [tokens]
  | object _ _ ih =>
    intro found rest _
    change tokensFrom .idle (.beginObject :: found) (_ ++ ['\x7d'] ++ rest) = _
    rw [List.append_assoc]
    change tokensFrom .idle _ (_ ++ '\x7d' :: rest) = _
    rw [legible_members ih]
    change tokensFrom .idle (.endObject :: _) rest = _
    simp [tokens]

/-- The tokens of a text are those of the value written. -/
theorem tokens?_render {v : Json} (h : v.Fits n) : tokens? (render v) = some v.tokens := by
  have hv := legible_of_fits h [] [] ends_nil
  rw [List.append_nil, List.append_nil] at hv
  rw [tokens?, hv]
  simp [tokensFrom, Scan.finish]

end ScoreRelay.Json
