import Mathlib.Algebra.Group.Nat.Defs
import Mathlib.Data.List.Basic
import ScoreRelay.Text.Blank
import ScoreRelay.Text.Digits

/-! A row of digits is read as the number it was written for, as long as the reader takes all of it and
nothing behind it. -/
namespace ScoreRelay.Text

variable {cs ds rest : List Char} {c : Char} {most width n : Nat}

theorem valueOfDigits_toDigits (n : Nat) : valueOfDigits (Nat.toDigits 10 n) = n := by
  calc valueOfDigits (Nat.toDigits 10 n)
      = Nat.ofDigitChars 10 (Nat.toDigits 10 n) 0 := by
        simp only [valueOfDigits, Nat.ofDigitChars_eq_foldl, Nat.mul_comm]
        rfl
    _ = n := Nat.ofDigitChars_ten_toDigits

theorem valueOfDigits_padded (width n : Nat) : valueOfDigits (padded width n) = n := by
  have hz : ∀ k ds, valueOfDigits (List.replicate k '0' ++ ds) = valueOfDigits ds := by
    intro k ds
    induction k with
    | zero => rfl
    | succ k ih => exact ih
  rw [padded, hz, valueOfDigits_toDigits]

theorem isDigit_of_mem_padded (h : c ∈ padded width n) : c.isDigit = true := by
  rcases List.mem_append.mp h with h | h
  · rw [List.eq_of_mem_replicate h]
    rfl
  · exact Nat.isDigit_of_mem_toDigits (by omega) (by omega) h

theorem padded_ne_nil : padded width n ≠ [] :=
  List.append_ne_nil_of_right_ne_nil _ Nat.toDigits_ne_nil

theorem length_padded (hw : 0 < width) (h : n < 10 ^ width) : (padded width n).length = width := by
  have hl := (Nat.length_toDigits_le_iff (b := 10) (by omega) hw).mpr h
  simp only [padded, List.length_append, List.length_replicate]
  omega

/-- All of a row of digits is taken, if there is room for it and no digit follows that would still be. -/
theorem leadingDigits_append (hd : ∀ c ∈ ds, c.isDigit = true) (hl : ds.length ≤ most)
    (hr : ds.length = most ∨ ∀ c ∈ rest.head?, c.isDigit = false) :
    leadingDigits most (ds ++ rest) = ds := by
  induction ds generalizing most with
  | nil =>
    cases most with
    | zero => rfl
    | succ most =>
      cases rest with
      | nil => rfl
      | cons c rest =>
        have hc : c.isDigit = false := (hr.resolve_left (by simp)) c rfl
        simp [leadingDigits, hc]
  | cons d ds ih =>
    obtain ⟨hd, hds⟩ := List.forall_mem_cons.mp hd
    cases most with
    | zero => simp at hl
    | succ most =>
      rw [List.length_cons] at hl hr
      simp [leadingDigits, hd, ih hds (Nat.le_of_succ_le_succ hl) (hr.imp_left Nat.succ.inj)]

theorem number?_digits (hd : ∀ c ∈ ds, c.isDigit = true) (hn : ds ≠ []) (hl : ds.length ≤ most)
    (hr : ds.length = most ∨ ∀ c ∈ rest.head?, c.isDigit = false) :
    number? most (ds ++ rest) = some (valueOfDigits ds, rest) := by
  simp [number?, leadingDigits_append hd hl hr, hn]

/-- A number written with a width is read by a reader of that width. -/
theorem number?_padded (hw : 0 < width) (h : n < 10 ^ width) :
    number? width (padded width n ++ rest) = some (n, rest) := by
  have hl := length_padded hw h
  rw [number?_digits (fun _ => isDigit_of_mem_padded) padded_ne_nil (Nat.le_of_eq hl) (Or.inl hl),
    valueOfDigits_padded]

theorem trimFront_cons (h : isBlank c = false) : trimFront (c :: cs) = c :: cs := by
  simp [trimFront, h]

theorem isBlank_of_isDigit (h : c.isDigit = true) : isBlank c = false := by
  have hc : 48 ≤ c.toNat ∧ c.toNat ≤ 57 := by
    simpa [Char.isDigit, UInt32.le_iff_toNat_le] using h
  simp [isBlank]
  omega

/-- A number that is written begins with a digit. -/
theorem padded_cons (width n : Nat) : ∃ d ds, padded width n = d :: ds ∧ d.isDigit = true := by
  have hn : padded width n ≠ [] := padded_ne_nil
  obtain ⟨d, ds, hd⟩ := List.exists_cons_of_ne_nil hn
  exact ⟨d, ds, hd, isDigit_of_mem_padded (hd ▸ List.mem_cons_self)⟩

theorem trimFront_padded (width n : Nat) (rest : List Char) :
    trimFront (padded width n ++ rest) = padded width n ++ rest := by
  obtain ⟨d, ds, hd, hdigit⟩ := padded_cons width n
  rw [hd, List.cons_append, trimFront_cons (isBlank_of_isDigit hdigit)]

end ScoreRelay.Text
