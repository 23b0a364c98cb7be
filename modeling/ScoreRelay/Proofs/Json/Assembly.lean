import ScoreRelay.Proofs.Json.Tokens

/-! The tokens of a value are put together as the spelling of the value, so the text of a value is read as
the value that was written. -/
namespace ScoreRelay.Json

open Assembly

variable {v : Json} {n : Nat} {stack : List Frame} {ts : List Token} {a : Assembly}

theorem Assembly.run_cons (t : Token) : run a (t :: ts) = (a.step t).bind (run · ts) := by
  rw [run]
  cases a.step t <;> rfl

/-- The tokens of a value hand its spelling to the container that awaits it, whatever comes behind. -/
def Assembles (v : Json) : Prop := ∀ stack ts,
  run ⟨.value, stack⟩ (v.tokens ++ ts) = (deliver v.source stack).bind (run · ts)

/-- No value begins with the end of an array. -/
theorem run_firstItem (v : Json) (ts : List Token) :
    run ⟨.firstItem, stack⟩ (v.tokens ++ ts) = run ⟨.value, stack⟩ (v.tokens ++ ts) := by
  cases v <;> rfl

theorem run_item (hv : v.Assembles) (done : List Source) :
    run ⟨.value, .array done :: stack⟩ (v.tokens ++ ts) =
      run ⟨.separator, .array (v.source :: done) :: stack⟩ ts := hv _ _

theorem run_member (hv : v.Assembles) (k : String) (done : List (Option String × Source)) :
    run ⟨.key, .object done :: stack⟩ (.string (some k) :: .colon :: (v.tokens ++ ts)) =
      run ⟨.separator, .object ((some k, v.source) :: done) :: stack⟩ ts :=
  hv (.field done (some k) :: stack) ts

theorem run_items {items : List Json} (h : ∀ w ∈ items, w.Assembles) (hv : v.Assembles)
    (done : List Source) :
    run ⟨.value, .array done :: stack⟩ (itemTokens (v :: items) ++ .endArray :: ts) =
      (deliver (.array (done.reverse ++ sources (v :: items))) stack).bind (run · ts) := by
  induction items generalizing v done with
  | nil =>
    rw [itemTokens, run_item hv, run_cons]
    simp [step, endArray, sources]
  | cons w items ih =>
    obtain ⟨hw, hs⟩ := List.forall_mem_cons.mp h
    rw [itemTokens, List.append_assoc, run_item hv, List.cons_append, run_cons]
    simp only [step, separate, Option.bind_some]
    rw [ih hs hw]
    simp [sources]

theorem run_members {ms : List (String × Json)} {k : String} (h : ∀ m ∈ ms, m.2.Assembles)
    (hv : v.Assembles) (done : List (Option String × Source)) :
    run ⟨.key, .object done :: stack⟩ (memberTokens ((k, v) :: ms) ++ .endObject :: ts) =
      (deliver (.object (done.reverse ++ memberSources ((k, v) :: ms))) stack).bind (run · ts) := by
  induction ms generalizing k v done with
  | nil =>
    rw [memberTokens, List.cons_append, List.cons_append, run_member hv, run_cons]
    simp [step, endObject, memberSources]
  | cons m ms ih =>
    obtain ⟨hm, hs⟩ := List.forall_mem_cons.mp h
    rw [memberTokens, List.cons_append, List.cons_append, List.append_assoc, run_member hv,
      List.cons_append, run_cons]
    simp only [step, separate, Option.bind_some]
    rw [ih hs hm]
    simp [memberSources]

theorem assembles_of_fits (h : v.Fits n) : v.Assembles := by
  induction h with
  | null => intro stack ts; exact run_cons _
  | bool b => intro stack ts; exact run_cons _
  | int _ _ => intro stack ts; exact run_cons _
  | string s => intro stack ts; exact run_cons _
  | @array n items _ ih =>
    intro stack ts
    rw [tokens, List.cons_append, run_cons]
    simp only [step, begin, Option.bind_some, List.append_assoc, List.singleton_append]
    cases items with
    | nil => simp [itemTokens, run_cons, step, endArray, source, sources]
    | cons v items =>
      obtain ⟨hv, hs⟩ := List.forall_mem_cons.mp ih
      have hf : run ⟨.firstItem, .array [] :: stack⟩ (itemTokens (v :: items) ++ .endArray :: ts) =
          run ⟨.value, .array [] :: stack⟩ (itemTokens (v :: items) ++ .endArray :: ts) := by
        cases items with
        | nil => exact run_firstItem v _
        | cons w items =>
          rw [itemTokens, List.append_assoc]
          exact run_firstItem v _
      rw [hf, run_items hs hv]
      rfl
  | @object n ms _ _ ih =>
    intro stack ts
    rw [tokens, List.cons_append, run_cons]
    simp only [step, begin, Option.bind_some, List.append_assoc, List.singleton_append]
    cases ms with
    | nil => simp [memberTokens, run_cons, step, endObject, source, memberSources]
    | cons m ms =>
      obtain ⟨hm, hs⟩ := List.forall_mem_cons.mp ih
      have hf : run ⟨.firstKey, .object [] :: stack⟩ (memberTokens (m :: ms) ++ .endObject :: ts) =
          run ⟨.key, .object [] :: stack⟩ (memberTokens (m :: ms) ++ .endObject :: ts) := by
        cases ms <;> rfl
      rw [hf, run_members hs hm]
      rfl

/-- The text of a value spells the value. -/
theorem ofText?_text_source (h : v.Fits n) : Source.ofText? v.text = some v.source := by
  have ha := assembles_of_fits h [] []
  rw [List.append_nil] at ha
  simp only [Source.ofText?, text, String.toList_ofList, tokens?_render h, Option.bind_eq_bind,
    Option.bind_some, initial]
  rw [ha]
  rfl

/-- The text of a value is read as that value. -/
theorem ofText?_text (h : v.Fits maxLevels) : ofText? v.text = some v := by
  rw [ofText?, ofText?_text_source h]
  exact value?_source h

end ScoreRelay.Json
