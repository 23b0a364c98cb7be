import ScoreRelay.Proofs.Json.Value
import ScoreRelay.Wire.Record

/-! Decoders read what the writers beside them wrote: single values, lists, names, optional values, and the
fields of a record. -/
namespace ScoreRelay.Wire

open Json

variable {α : Type} {d : Decoder α} {encode : α → Json} {n bound : Nat}

@[simp] theorem string_source (s : String) : string (Json.string s).source = some s := rfl

@[simp] theorem bool_source (b : Bool) : bool (Json.bool b).source = some b := rfl

theorem natural_source (h : n < bound) (hb : bound ≤ 2 ^ 64) :
    natural bound (Json.int n).source = some n := by
  have hi : (Literal.ofInt n).int? = some (n : Int) := Literal.int?_ofInt (by omega) (by omega)
  simp only [source, natural, hi]
  exact if_pos h

@[simp] theorem uint8_source (n : UInt8) : uint8 (Json.int n.toNat).source = some n := by
  simp [uint8, natural_source n.toNat_lt_size (by decide)]

@[simp] theorem uint32_source (n : UInt32) : uint32 (Json.int n.toNat).source = some n := by
  simp [uint32, natural_source n.toNat_lt_size (by decide)]

theorem list_source (h : ∀ a, d (encode a).source = some a) (as : List α) :
    list d (Json.array (as.map encode)).source = some as := by
  simp only [source, list]
  induction as with
  | nil => rfl
  | cons a as ih => simp [sources, h, ih]

/-- A missing value is written as `null`, which stands for no value. -/
theorem nullable_orNull (h : ∀ a, d (encode a).source = some a) (hn : d .null = none)
    (o : Option α) : nullable d (orNull encode o).source = some o := by
  cases o with
  | none => rfl
  | some a =>
    have ha := h a
    rw [orNull]
    cases hs : (encode a).source with
    | null => simp_all
    | _ => simp_all [nullable]

theorem named_source {all : List α} {name : α → String} {a : α} (ha : a ∈ all)
    (hi : ∀ b, name b = name a → b = a) : named all name (Json.string (name a)).source = some a := by
  simp only [source, named]
  cases hf : all.find? fun b => name b = name a with
  | none =>
    rw [List.find?_eq_none] at hf
    simpa using hf a ha
  | some b =>
    have hb := List.find?_some hf
    rw [hi b (by simpa using hb)]

namespace Record

/-- Stated as it is, the names are compared once; unfolding the search evaluates them letter by letter. -/
theorem lookup_of_ne {β : Type} {name k : String} {s : β} {rest : List (String × β)} (h : name ≠ k) :
    ((k, s) :: rest).lookup name = rest.lookup name := by
  rw [List.lookup_cons, beq_false_of_ne h]

variable {names : List String} {ms : List (String × Json)}

theorem known_memberSources (hk : (ms.map Prod.fst).Nodup) (hn : ∀ m ∈ ms, m.1 ∈ names) :
    known names (memberSources ms) = some (ms.map fun m => (m.1, m.2.source)) := by
  induction ms with
  | nil => rfl
  | cons m ms ih =>
    obtain ⟨hm, hms⟩ := List.forall_mem_cons.mp hn
    obtain ⟨hnew, hk⟩ := List.nodup_cons.mp hk
    have hl : (ms.map fun m => (m.1, m.2.source)).lookup m.1 = none := by
      rw [List.lookup_eq_none_iff]
      intro p hp
      obtain ⟨m', hm', rfl⟩ := List.mem_map.mp hp
      have hne : m.1 ≠ m'.1 := fun he => hnew (he ▸ List.mem_map_of_mem hm')
      simpa using hne
    simp [memberSources, known, ih hk hms, hm, hl]

/-- The record of an object whose members are among the fields of the record, each given once. -/
theorem of?_object (hk : (ms.map Prod.fst).Nodup) (hn : ∀ m ∈ ms, m.1 ∈ names) :
    of? names (Json.object ms).source = some ⟨false, ms.map fun m => (m.1, m.2.source)⟩ := by
  simp [source, of?, known_memberSources hk hn]

end Record

end ScoreRelay.Wire
