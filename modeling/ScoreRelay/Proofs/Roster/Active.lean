import ScoreRelay.Roster

/-! Who is in charge, and what the news about a package can change about that. -/
namespace ScoreRelay

namespace Provider

/-- The provider may be in charge once nobody before it is. -/
def eligible (p : Provider) : Bool := p.service.isSome && p.installed

def scorer (p : Provider) : Scorer := ⟨p.package, p.uid, p.service⟩

/-- The provider after the news about a package. -/
def note (package : String) (installed : Bool) (p : Provider) : Provider :=
  if p.package = package then { p with installed := installed } else p

variable {p p' : Provider} {ps : List Provider} {package : String} {installed : Bool}

@[simp] theorem package_note : (p.note package installed).package = p.package := by
  unfold note
  split <;> rfl

theorem note_of_other (h : p.package ≠ package) : p.note package installed = p := by
  simp [note, h]

/-- The news about one package cannot put another provider before the one in charge. -/
theorem find_note_of_other (hp : ps.find? eligible = some p)
    (hp' : (ps.map (note package installed)).find? eligible = some p')
    (h : p.package ≠ package) (h' : p'.package ≠ package) : p = p' := by
  induction ps with
  | nil => contradiction
  | cons q ps ih =>
    rw [List.map_cons, List.find?_cons] at hp'
    rw [List.find?_cons] at hp
    by_cases hq : q.package = package
    · split at hp
      · exact absurd (Option.some.inj hp ▸ hq) h
      · split at hp'
        · exact absurd (Option.some.inj hp' ▸ package_note.trans hq) h'
        · exact ih hp hp'
    · rw [note_of_other hq] at hp'
      split at hp
      · rename_i he
        rw [he] at hp'
        exact Option.some.inj (hp.symm.trans hp')
      · rename_i he
        rw [he] at hp'
        exact ih hp hp'

/-- Whoever is in charge stays there when it is installed once more. -/
theorem find_note_installed (hp : ps.find? eligible = some p)
    (hp' : (ps.map (note p.package true)).find? eligible = some p') :
    p'.package = p.package := by
  induction ps with
  | nil => contradiction
  | cons q ps ih =>
    rw [List.map_cons, List.find?_cons] at hp'
    rw [List.find?_cons] at hp
    by_cases hq : q.package = p.package
    · split at hp'
      · rw [← Option.some.inj hp', package_note, hq]
      · rename_i hn
        split at hp
        · rename_i he
          simp only [eligible, Bool.and_eq_true] at he
          simp [eligible, note, hq, he.1] at hn
        · exact ih hp hp'
    · rw [note_of_other hq] at hp'
      split at hp
      · exact absurd (Option.some.inj hp ▸ rfl) hq
      · rename_i he
        rw [he] at hp'
        exact ih hp hp'

end Provider

namespace Roster

variable {r : Roster} {package : String} {installed : Bool} {s s' : Scorer} {p : Provider}

theorem setInstalled_eq : r.setInstalled package installed =
    { r with providers := r.providers.map (Provider.note package installed) } := rfl

@[simp] theorem candidates_setInstalled (package : String) (installed : Bool) :
    (r.setInstalled package installed).candidates = r.candidates := by
  simp only [candidates, setInstalled_eq, List.map_map]
  exact List.map_congr_left fun p _ => Provider.package_note

theorem mem_setInstalled (h : p ∈ (r.setInstalled package installed).providers) :
    ∃ q ∈ r.providers, p = q.note package installed := by
  rw [setInstalled_eq] at h
  obtain ⟨q, hq, rfl⟩ := List.mem_map.mp h
  exact ⟨q, hq, rfl⟩

theorem setInstalled_of_stranger (h : package ∉ r.candidates) (installed : Bool) :
    r.setInstalled package installed = r := by
  have hp : r.providers.map (Provider.note package installed) = r.providers.map id :=
    List.map_congr_left fun p hm => Provider.note_of_other fun he => h (List.mem_map.mpr ⟨p, hm, he⟩)
  rw [setInstalled_eq, hp, List.map_id]

theorem active_eq_some : r.active = some s ↔
    r.enabled = true ∧ ∃ p, r.providers.find? Provider.eligible = some p ∧ p.scorer = s := by
  unfold active
  split
  · rename_i he
    simp only [he, true_and, Option.map_eq_some_iff]
    rfl
  · rename_i he
    simp [he]

/-- Whoever is in charge can be reached, at an endpoint in its own package. -/
theorem endpoint_of_active (h : r.active = some s) :
    ∃ e, s.endpoint = some e ∧ e.package = s.package := by
  obtain ⟨-, p, hp, rfl⟩ := active_eq_some.mp h
  have he := List.find?_some hp
  simp only [Provider.eligible, Bool.and_eq_true] at he
  obtain ⟨c, hc⟩ := Option.isSome_iff_exists.mp he.1
  exact ⟨⟨p.package, c⟩, by simp [Scorer.endpoint, Provider.scorer, hc], rfl⟩

theorem active_of_no_candidate (h : r.candidates = []) : r.active = none := by
  have hp : r.providers = [] := by simpa [candidates] using h
  simp [active, hp]

theorem package_mem_of_active (h : r.active = some s) : s.package ∈ r.candidates := by
  obtain ⟨-, p, hp, rfl⟩ := active_eq_some.mp h
  exact List.mem_map.mpr ⟨p, List.mem_of_find?_eq_some hp, rfl⟩

/-- If somebody else comes in charge over the news about a package that is not its own, then the package
is that of whoever was in charge, and is gone. -/
theorem removed_of_setInstalled (h : r.active = some s)
    (h' : (r.setInstalled package installed).active = some s') (hne : s' ≠ s)
    (hp : s'.package ≠ package) : package = s.package ∧ installed = false := by
  obtain ⟨-, q, hq, rfl⟩ := active_eq_some.mp h
  obtain ⟨-, q', hq', rfl⟩ := active_eq_some.mp h'
  have hpk : q.package = package := by
    apply Decidable.byContradiction
    intro hn
    exact hne (congrArg Provider.scorer (Provider.find_note_of_other hq hq' hn hp)).symm
  subst hpk
  refine ⟨rfl, ?_⟩
  cases installed with
  | false => rfl
  | true => exact absurd (Provider.find_note_installed hq hq') hp

theorem package_ne_of_removed (h : (r.setInstalled package false).active = some s) :
    s.package ≠ package := by
  obtain ⟨-, q, hq, rfl⟩ := active_eq_some.mp h
  intro hp
  obtain ⟨q₀, -, rfl⟩ := mem_setInstalled (List.mem_of_find?_eq_some hq)
  have he := List.find?_some hq
  have hp₀ : q₀.package = package := Provider.package_note.symm.trans hp
  simp [Provider.eligible, Provider.note, hp₀] at he

end Roster

end ScoreRelay
