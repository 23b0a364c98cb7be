import Mathlib.Algebra.Group.Int.Defs
import ScoreRelay.Json.Basic
import ScoreRelay.Proofs.Text.Digits

/-! A value that is written down and read again is the same value, if its integers have room in 64 bits, no
object of it repeats a key, and it is not nested too deep. -/
namespace ScoreRelay.Json

variable {v : Json} {n m : Nat} {i : Int} {items : List Json} {ms acc : List (String × Json)}
  {key : String}

theorem Literal.int?_ofInt (h : -2 ^ 63 ≤ i) (h' : i < 2 ^ 64) : (ofInt i).int? = some i := by
  have hw : Text.valueOfDigits (ofInt i).whole = i.natAbs := Text.valueOfDigits_toDigits _
  simp only [int?, hw]
  by_cases hi : i < 0
  · have hn : 0 < i.natAbs ∧ i.natAbs ≤ Nat.pow 2 63 := by
      rw [show Nat.pow 2 63 = 9223372036854775808 from rfl]
      omega
    have hneg : -(i.natAbs : Int) = i := by omega
    simp only [ofInt, hi, hn, hneg, List.isEmpty_nil, Option.isNone_none, Bool.and_self, and_self,
      decide_true, if_true]
  · have hn : i.natAbs < UInt64.size := by
      rw [show UInt64.size = 18446744073709551616 from rfl]
      omega
    have hpos : (i.natAbs : Int) = i := by omega
    simp only [ofInt, hi, hn, hpos, List.isEmpty_nil, Option.isNone_none, Bool.and_self,
      decide_false, Bool.false_eq_true, if_true, if_false]

/-- The value has no fraction in it, its integers have room in 64 bits, its keys are distinct in every
object, and no more than so many containers stand inside one another. -/
inductive Fits : Nat → Json → Prop where
  | null {n : Nat} : Fits n .null
  | bool {n : Nat} (b : Bool) : Fits n (.bool b)
  | int {n : Nat} {i : Int} (h : -2 ^ 63 ≤ i) (h' : i < 2 ^ 64) : Fits n (.int i)
  | string {n : Nat} (s : String) : Fits n (.string s)
  | array {n : Nat} {items : List Json} (h : ∀ v ∈ items, Fits n v) : Fits (n + 1) (.array items)
  | object {n : Nat} {ms : List (String × Json)} (hk : (ms.map Prod.fst).Nodup)
      (h : ∀ m ∈ ms, Fits n m.2) : Fits (n + 1) (.object ms)

attribute [simp] Fits.null Fits.bool Fits.string

theorem fits_natural {k : Nat} (h : k < 2 ^ 64) : Fits n (.int k) := .int (by omega) (by omega)

theorem fits_count (k : Nat) : Fits n (count k) := fits_natural (UInt64.ofNat k).toNat_lt

/-- What fits fits with more levels too. -/
theorem fits_succ (h : v.Fits n) : v.Fits (n + 1) := by
  induction h with
  | null => exact .null
  | bool b => exact .bool b
  | int h h' => exact .int h h'
  | string s => exact .string s
  | array _ ih => exact .array ih
  | object hk _ ih => exact .object hk ih

theorem memberSources_eq (ms : List (String × Json)) :
    memberSources ms = ms.map fun m => (some m.1, m.2.source) := by
  induction ms with
  | nil => rfl
  | cons m ms ih => rw [memberSources, ih, List.map_cons]

theorem put_of_new (h : key ∉ acc.map Prod.fst) : put key v acc = acc ++ [(key, v)] := by
  induction acc with
  | nil => rfl
  | cons m acc ih =>
    obtain ⟨hm, hacc⟩ := List.ne_and_not_mem_of_not_mem_cons h
    simp [put, hm.symm, ih hacc]

theorem values?_sources (h : ∀ v ∈ items, v.source.value? n = some v) :
    Source.values? n (sources items) = some items := by
  induction items with
  | nil => simp [sources, Source.values?]
  | cons v items ih =>
    obtain ⟨hv, hs⟩ := List.forall_mem_cons.mp h
    simp [sources, Source.values?, hv, ih hs]

theorem members?_memberSources (h : ∀ m ∈ ms, m.2.source.value? n = some m.2)
    (hk : ((acc ++ ms).map Prod.fst).Nodup) :
    Source.members? n (memberSources ms) acc = some (acc ++ ms) := by
  induction ms generalizing acc with
  | nil => simp [memberSources, Source.members?]
  | cons m ms ih =>
    obtain ⟨hm, hms⟩ := List.forall_mem_cons.mp h
    have hnew : m.1 ∉ acc.map Prod.fst := by
      intro hmem
      rw [List.map_append, List.nodup_append] at hk
      exact hk.2.2 _ hmem _ (by simp) rfl
    rw [List.append_cons] at hk
    simp [memberSources, Source.members?, hm, put_of_new hnew, ih hms hk]

/-- What fits is read as it was written. -/
theorem value?_source (h : v.Fits n) : v.source.value? n = some v := by
  induction h with
  | null => simp [source, Source.value?]
  | bool b => simp [source, Source.value?]
  | int h h' => simp [source, Source.value?, Literal.int?_ofInt h h']
  | string s => simp [source, Source.value?]
  | array _ ih => simp [source, Source.value?, values?_sources ih]
  | @object n ms hk _ ih =>
    have hm : Source.members? n (memberSources ms) [] = some ms := members?_memberSources ih hk
    simp [source, Source.value?, hm]

end ScoreRelay.Json
