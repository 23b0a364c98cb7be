import ScoreRelay.Proofs.Text.Digits
import ScoreRelay.Time.Timestamp

/-! An instant is read from its written form as it was. -/
namespace ScoreRelay.Time.Timestamp

open Text

variable {cs ds rest : List Char} {c d : Char} {n : Nat}

theorem mark?_cons (h : isBlank c = false) : mark? c (c :: cs) = some cs := by
  simp [mark?, trimFront_cons h]

theorem field?_padded (h : n < 100) : field? (padded 2 n ++ rest) = some (n, rest) := by
  rw [field?, trimFront_padded, number?_padded (by decide) h]

theorem year?_unsigned (h : d.isDigit = true) :
    year? (d :: ds) = (number? 4 (d :: ds)).map fun (n, r) => ((n : Int), r) := by
  rw [year?, trimFront_cons (isBlank_of_isDigit h)]
  split
  · rename_i he
    simp_all
  · rename_i he
    simp_all
  · rfl

theorem year?_renderYear (y : Int) : year? (renderYear y ++ '-' :: rest) = some (y, '-' :: rest) := by
  have hsigned : number? (padded 4 y.natAbs ++ '-' :: rest).length (padded 4 y.natAbs ++ '-' :: rest) =
      some (y.natAbs, '-' :: rest) := by
    rw [number?_digits (fun _ => isDigit_of_mem_padded) padded_ne_nil (by simp) (Or.inr (by simp)),
      valueOfDigits_padded]
  unfold renderYear
  split
  · obtain ⟨d, ds, hd, hdigit⟩ := padded_cons 4 y.toNat
    have hn : number? 4 (padded 4 y.toNat ++ '-' :: rest) = some (y.toNat, '-' :: rest) :=
      number?_padded (by decide) (by omega)
    rw [hd, List.cons_append] at hn ⊢
    rw [year?_unsigned hdigit, hn]
    simp
    omega
  · split
    · rw [List.cons_append, year?, trimFront_cons (by rfl)]
      simp only [hsigned, Option.map_some]
      congr
      omega
    · rw [List.cons_append, year?, trimFront_cons (by rfl)]
      simp only [hsigned, Option.map_some]
      congr
      omega

/-- A fraction is read in nanoseconds, however many of its places are written. -/
theorem fraction?_padded {width : Nat} (hw : 0 < width) (hw' : width ≤ 9) (h : n < 10 ^ width) :
    fraction? ('.' :: padded width n ++ ['Z']) = some (n * Nat.pow 10 (9 - width), ['Z']) := by
  have hl := length_padded hw h
  have hd : leadingDigits 9 (padded width n ++ ['Z']) = padded width n :=
    leadingDigits_append (fun _ => isDigit_of_mem_padded) (by omega) (Or.inr (by simp))
  simp only [List.cons_append, fraction?, hd, hl, valueOfDigits_padded, List.isEmpty_iff, padded_ne_nil,
    if_false]
  rw [List.drop_left' hl]
  rfl

theorem fraction?_renderFraction (h : n < 1000000000) :
    fraction? (renderFraction n ++ ['Z']) = some (n, ['Z']) := by
  unfold renderFraction
  split
  · subst_vars
    rfl
  split
  · rw [fraction?_padded (by decide) (by decide) (by omega)]
    simp
    omega
  split
  · rw [fraction?_padded (by decide) (by decide) (by omega)]
    simp
    omega
  · rw [fraction?_padded (by decide) (by decide) (by omega)]
    simp

theorem rebase_zero (t : Timestamp) : t.rebase 0 = some t := by
  obtain ⟨date, hour, minute, second, nanos, hv⟩ := t
  have hm : ¬ (hour * 60 + minute : Int) < 0 := by omega
  have hm' : ¬ 1440 ≤ (hour * 60 + minute : Int) := by omega
  have hh : (hour * 60 + minute : Int).toNat / 60 = hour := by omega
  have hmin : (hour * 60 + minute : Int).toNat % 60 = minute := by omega
  simp [rebase, hm, hm', hh, hmin, of?, hv]

theorem monthLength_bounds {y : Int} {m : Nat} (h : 0 < monthLength y m) :
    m ≤ 12 ∧ monthLength y m ≤ 31 := by
  unfold monthLength at *
  split at h <;> grind

theorem bind_of_some {α β : Type} {o : Option α} {k : α → Option β} {x : α} (h : o = some x) :
    (o >>= k) = k x := by
  rw [h]
  rfl

theorem ofText?_text (t : Timestamp) : ofText? t.text = some t := by
  obtain ⟨⟨-, -, hfirst, hlast⟩, hhour, hminute, hsecond, hnanos⟩ := t.valid
  obtain ⟨hmonth, hlength⟩ := monthLength_bounds (Nat.lt_of_lt_of_le hfirst hlast)
  have ht : t.text.toList = renderYear t.date.year ++ '-' :: (padded 2 t.date.month ++
      '-' :: (padded 2 t.date.day ++ 'T' :: (padded 2 t.hour ++ ':' :: (padded 2 t.minute ++
        ':' :: (padded 2 t.second ++ (renderFraction t.nanos ++ ['Z'])))))) := by
    simp [text, render]
  have hz : offset? (trimFront ['Z']) = some (0, []) := by decide
  have hof : of? ⟨t.date.year, t.date.month, t.date.day⟩ t.hour t.minute t.second t.nanos = some t :=
    dif_pos t.valid
  rw [ofText?, ht]
  -- The parts are read in the order in which they were written.
  refine (bind_of_some (year?_renderYear _)).trans ?_
  refine (bind_of_some (mark?_cons rfl)).trans ?_
  refine (bind_of_some (field?_padded (by omega))).trans ?_
  refine (bind_of_some (mark?_cons rfl)).trans ?_
  refine (bind_of_some (field?_padded (by omega))).trans ?_
  refine (bind_of_some (field?_padded (by omega))).trans ?_
  refine (bind_of_some (mark?_cons rfl)).trans ?_
  refine (bind_of_some (field?_padded (by omega))).trans ?_
  refine (bind_of_some (mark?_cons rfl)).trans ?_
  refine (bind_of_some (field?_padded (by omega))).trans ?_
  refine (bind_of_some (fraction?_renderFraction hnanos)).trans ?_
  refine (bind_of_some hz).trans ?_
  exact (bind_of_some hof).trans (rebase_zero t)

end ScoreRelay.Time.Timestamp
