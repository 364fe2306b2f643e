import RouteProgramming.Proofs.Rib.History

/-! The tables of every RIB with a history are sound and within the capacity,
so that no operation ever fails inside them. Counts of holders stay below the
capacity of one table, apart from the moment in a write when the new references
are held and the old ones are not yet released; even then they fit 32 bits. -/

namespace RouteProgramming

namespace History

open Rib

/-- Integrity of the tables of every network instance, at every moment of every history. -/
theorem integrity (h : History) (hcap : h.capacity < 4294967295) {ni : String} {a : Aft}
    (ha : h.rib.instances.get? ni = some a) :
    a.Sound ∧ (∀ p n, a.holders? (.ipv4 p) = some n → n = 0) ∧ (∀ kind, a.sizeOf kind ≤ h.capacity) ∧
      (∀ c o k cause, (h.rib.apply c o).1 ≠ .error (.holding k cause)) ∧
      (∀ k n, a.holders? k = some n → n < 4294967296) ∧
      ∀ e mustExist, checkWrite a h.capacity ni e mustExist = .ok () → ∀ ks, ks <+: e.references →
        ∃ b, a.holdAll ks = (.ok (), b) ∧ ∀ k n, b.holders? k = some n → n < 4294967296 := by
  have hs := h.coherent.sound ni a ha
  have hsize (kind : EntryKind) : a.sizeOf kind ≤ h.capacity :=
    h.capacity_rib ▸ h.coherent.bounded ni a ha kind
  refine ⟨hs, fun p n hn => ?_, hsize, fun c o k cause hf => ?_, fun k n hn => ?_,
    fun e mustExist check ks hks => ?_⟩
  · rw [hs.holders?_eq hn, Aft.referrers_ipv4]
  · have := apply_external h.coherent hf
    contradiction
  · have := h.capacity_rib ▸ h.coherent.holders?_le ha hn
    omega
  · obtain ⟨b, hhold, hle⟩ := hs.holding_le (checkWrite_ok check).2.2.2 hks
    refine ⟨b, hhold, fun k n hn => ?_⟩
    have := hle k n hn
    have := hsize k.referrerKind
    omega

theorem integrity_oneRoute : ∃ a, (oneRoute []).rib.instances.get? "DEFAULT" = some a ∧
    a.holders? (.nextHopGroup 10) = some 1 ∧ a.Sound ∧ ∀ kind, a.sizeOf kind ≤ 16 := by
  obtain ⟨a, ha, hholders⟩ : ∃ a, (oneRoute []).rib.instances.get? "DEFAULT" = some a ∧
      a.holders? (.nextHopGroup 10) = some 1 := by
    exact ⟨_, rfl, rfl⟩
  have hintegrity := integrity (oneRoute []) (by decide) ha
  exact ⟨a, ha, hholders, hintegrity.1, hintegrity.2.2.1⟩

end History

end RouteProgramming
