import Mathlib.Data.List.Nodup
import ScoreRelay.Proofs.Registry.Broadcast
import ScoreRelay.Proofs.Registry.Catalog

/-! The registries that registering and unregistering lead to: each registration is shown once, under its own
kind of network. -/
namespace ScoreRelay

variable {κ : Type} {reg : Registration κ} {t : NetworkType}

/-- What tells a registration from every other one. -/
def Registration.key (reg : Registration κ) : NetworkType × String := (reg.networkType, reg.id)

namespace Catalog

theorem nodup_keys (c : Catalog κ) :
    ((c.snapshotAll.flatMap ListenerSet.registrations).map Registration.key).Nodup := by
  have hentry (t : NetworkType) : ((c.entries t).map Registration.key).Nodup := by
    have hid : (c.entries t).map Registration.id =
        ((c.entries t).map Registration.key).map Prod.snd := by simp [Registration.key]
    have hd := c.distinct t
    rw [hid] at hd
    exact hd.of_map Prod.snd
  have htypes : c.networkTypes.Nodup := List.Nodup.filter _ (by decide)
  simp only [snapshotAll, List.flatMap_map, List.map_flatMap]
  refine List.nodup_flatMap.mpr ⟨fun t _ => hentry t, ?_⟩
  refine htypes.imp ?_
  -- two kinds have nothing in common, for the kind is part of the key
  intro t u hne key ht hu
  obtain ⟨reg, hreg, rfl⟩ := List.mem_map.mp ht
  obtain ⟨reg', hreg', he⟩ := List.mem_map.mp hu
  have hk : reg'.networkType = reg.networkType := congrArg Prod.fst he
  rw [c.own t reg hreg, c.own u reg' hreg'] at hk
  exact hne hk.symm

end Catalog

namespace Registry

variable {r : Registry κ}

/-- The registry has come about by registering and unregistering. -/
def Reached (r : Registry κ) : Prop := ∃ ops, r = (({} : Registry κ).operateAll ops).2

theorem shows_of_reached (h : r.Reached) : ∃ c : Catalog κ, r.Shows c := by
  obtain ⟨ops, rfl⟩ := h
  exact ⟨_, (agree_operateAll shows_empty ops).2⟩

theorem nodup_of_reached (h : r.Reached) :
    (r.listed.map Registration.key).Nodup := by
  obtain ⟨c, hc⟩ := shows_of_reached h
  rw [listed, snapshotAll_of_shows hc]
  exact c.nodup_keys

theorem nodup_ids_of_reached (h : r.Reached) (t : NetworkType) :
    ((r.registrations t).map Registration.id).Nodup := by
  obtain ⟨c, hc⟩ := shows_of_reached h
  rw [hc.registrations]
  exact c.distinct t

theorem networkType_of_reached (h : r.Reached) (hm : reg ∈ r.registrations t) :
    reg.networkType = t := by
  obtain ⟨c, hc⟩ := shows_of_reached h
  rw [hc.registrations] at hm
  exact c.own t reg hm

end Registry

end ScoreRelay
