import RouteProgramming.Proofs.Forwarding.Routing
import RouteProgramming.Proofs.Rib.Hardware
import RouteProgramming.Proofs.Rib.Locality

/-! A RIB whose hardware mirrors its tables. As long as no failure is injected,
every event keeps it so, together with the order of the interfaces; and what is
installed is valid and has its references installed. -/

namespace RouteProgramming.Rib

variable {r s : Rib}

/-- The tables and the hardware have the same entries, no failure is to come, and the interfaces are in order. -/
structure Mirrored (r : Rib) : Prop where
  coherent : r.Coherent
  working : r.plane.failures = 0
  same : ∀ ni k, r.programmed? ni k = r.installed? ni k
  keyed : r.plane.Keyed

theorem Mirrored.step (h : r.Mirrored) {v : Event} (quiet : ∀ n, v = .failNext n → n = 0) : (r.step v).Mirrored := by
  have hstep := step_cases h.coherent v
  refine ⟨hstep.coherent h.coherent, hstep.failures quiet h.working, hstep.same h.working h.same, ?_⟩
  have hkept {t : Rib} (hi : r.plane.interfaces = t.plane.interfaces) : t.plane.Keyed := h.keyed.of_interfaces hi.symm
  cases v with
  | batch c os =>
    exact hkept (applyBatch_agreeOn (S := fun _ => True) h.working (fun _ _ => trivial) c).plane.interfaces
  | removeOwnedBy client => exact hkept (removeOwnedIn_agreeOn h.working).plane.interfaces
  | flush ni => exact hkept (removeWhere_agreeOn h.working).plane.interfaces
  | discard ni k => exact hkept (discard_agreeOn h.working ni k).plane.interfaces
  | failNext n => exact h.keyed
  | configure name address length enabled =>
    rw [Rib.step]
    split
    case h_1 p hp => exact h.keyed.configure hp
    case h_2 => exact h.keyed
  | removeInterface name => exact h.keyed.removeInterface name

theorem Mirrored.run (h : r.Mirrored) {es : List Event} (quiet : ∀ n, .failNext n ∈ es → n = 0) :
    (r.run es).Mirrored := by
  induction es generalizing r with
  | nil => exact h
  | cons v es ih =>
    exact ih (h.step fun n hn => quiet n (hn ▸ List.mem_cons_self)) fun n hn => quiet n (List.mem_cons_of_mem _ hn)

theorem mirrored_create (names : List String) (capacity : Nat) : (create names capacity).Mirrored :=
  ⟨create_coherent names capacity, rfl, fun ni k => by rw [programmed?_create, installed?_create], nofun⟩

/-! ### What is installed -/

variable {ni : String} {k : EntryKey} {e : Entry}

theorem Coherent.valid (h : r.Coherent) (hk : r.installed? ni k = some e) : e.key = k ∧ e.check = .ok () := by
  obtain ⟨a, ha, hrow⟩ := Option.bind_eq_some_iff.1 hk
  obtain ⟨held, hget, rfl⟩ := Option.map_eq_some_iff.1 hrow
  obtain ⟨hkey, hvalid⟩ := (h.sound ni a ha).stored k held hget
  refine ⟨hkey, ?_⟩
  rw [Entry.validate] at hvalid
  cases hcheck : held.value.entry.check with
  | error f => rw [hcheck] at hvalid; contradiction
  | ok u => rfl

theorem Coherent.closed (h : r.Coherent) (hk : r.installed? ni k = some e) {j : EntryKey} (hj : j ∈ e.references) :
    ∃ f, r.installed? ni j = some f ∧ f.key = j ∧ f.check = .ok () := by
  obtain ⟨a, ha, hrow⟩ := Option.bind_eq_some_iff.1 hk
  obtain ⟨held, hget, rfl⟩ := Option.map_eq_some_iff.1 hrow
  obtain ⟨other, hother⟩ := Aft.contains_iff.1 ((h.sound ni a ha).closed k held hget j hj)
  have hinstalled : r.installed? ni j = some other.value.entry := by rw [installed?, ha]; simp [hother]
  exact ⟨_, hinstalled, h.valid hinstalled⟩

end RouteProgramming.Rib
