import ScoreRelay.Text.Blank

/-! A text that was cut has no blanks at its ends, and one without them is left as it is. -/
namespace ScoreRelay.Text

variable {cs : List Char} {s : String}

/-- There is no blank at either end. -/
def Trimmed (s : String) : Prop :=
  (∀ c ∈ s.toList.head?, isBlank c = false) ∧ ∀ c ∈ s.toList.getLast?, isBlank c = false

theorem head?_trimFront (cs : List Char) : ∀ c ∈ (trimFront cs).head?, isBlank c = false := by
  intro c hc
  have h := List.head?_dropWhile_not isBlank cs
  rw [show (cs.dropWhile isBlank).head? = some c from hc] at h
  simpa using h

theorem trimFront_of_head? (h : ∀ c ∈ cs.head?, isBlank c = false) : trimFront cs = cs := by
  cases cs with
  | nil => rfl
  | cons c cs => simp [trimFront, h c rfl]

/-- Cutting in front leaves the other end as it is, if it leaves anything. -/
theorem getLast?_trimFront : ∀ c ∈ (trimFront cs).getLast?, c ∈ cs.getLast? := by
  intro c hc
  obtain ⟨front, hf⟩ : trimFront cs <:+ cs := List.dropWhile_suffix _
  rw [← hf, List.getLast?_append, Option.mem_def.mp hc, Option.some_or]
  rfl

theorem trimmed_trim (s : String) : Trimmed (trim s) := by
  simp only [Trimmed, trim, String.toList_ofList, trimChars]
  constructor
  · intro c hc
    rw [List.head?_reverse] at hc
    have hb := getLast?_trimFront c hc
    rw [List.getLast?_reverse] at hb
    exact head?_trimFront s.toList c hb
  · intro c hc
    rw [List.getLast?_reverse] at hc
    exact head?_trimFront _ c hc

theorem trim_of_trimmed (h : Trimmed s) : trim s = s := by
  obtain ⟨hh, hl⟩ := h
  rw [← List.head?_reverse] at hl
  rw [trim, trimChars, trimFront_of_head? hh, trimFront_of_head? hl, List.reverse_reverse,
    String.ofList_toList]

end ScoreRelay.Text
