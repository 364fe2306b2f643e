import Mathlib.Data.List.Induction
import RouteProgramming.Proofs.Forwarding.Programmed
import RouteProgramming.Proofs.Rib.History

/-! Entries that the hardware has and the tables have not. Batches make none. A
bulk removal takes an entry from the tables even when the hardware refuses to
let it go, and this is the only way: an entry is stale exactly when a bulk
removal has left it behind so and nothing has touched its key since. Hence a
history has no stale entry at any moment exactly when no bulk removal in it was
refused anything. What a bulk removal must leave is told by counts, which fit 32
bits with a capacity below 2 ^ 32 - 1 (`Coherent.holders?_le`). -/

namespace RouteProgramming

namespace Rib

variable {r s : Rib} {ni : String} {k : EntryKey}

def Stale (r : Rib) (ni : String) (k : EntryKey) : Prop :=
  (r.programmed? ni k).isSome ∧ r.installed? ni k = none

/-- The event is a bulk removal that the hardware refuses something. -/
def Refuses (r : Rib) (v : Event) : Prop :=
  v.isRemoval ∧ r.stats.forwardingFailures < (r.step v).stats.forwardingFailures

theorem not_stale_of_same (h : r.installed? ni k = r.programmed? ni k) : ¬r.Stale ni k := by
  rintro ⟨hprogrammed, hinstalled⟩
  rw [← h, hinstalled] at hprogrammed
  contradiction

theorem Orphaned.stale (hc : r.Coherent) (h : Orphaned r s ni k) : s.Stale ni k := by
  obtain ⟨e, he⟩ := Option.isSome_iff_exists.1 h.was
  refine ⟨?_, h.gone⟩
  rw [h.stays, hc.backed ni k e he]
  rfl

/-- A single removal orphans its key exactly when nothing refers to the key and a failure is pending. -/
theorem orphaned_discard_iff (hc : r.Coherent) (ni : String) (k : EntryKey) :
    Orphaned r (r.discard ni k).2 ni k ↔
      (∃ a, r.instances.get? ni = some a ∧ a.holders? k = some 0) ∧ 0 < r.plane.failures := by
  have h := discard_cases hc ni k
  generalize r.discard ni k = out at h
  cases h with
  | absent absent =>
    refine iff_of_false (fun ho => ?_) fun ⟨⟨a, known, free⟩, _⟩ => ?_
    · have := ho.was
      rw [absent] at this
      contradiction
    · have := isSome_installed? known free
      rw [absent] at this
      contradiction
  | held known held =>
    refine iff_of_false (fun ho => absurd ho.refused (Nat.lt_irrefl _)) fun ⟨⟨a, known', free⟩, _⟩ => ?_
    obtain rfl := Option.some.inj (known.symm.trans known')
    exact absurd (Option.some.inj (held.symm.trans free)) (Nat.succ_ne_zero _)
  | dropped known free failing sound row =>
    exact iff_of_true (orphaned_setAft known free row) ⟨⟨_, known, free⟩, failing⟩
  | done known free working sound row =>
    refine iff_of_false (fun ho => absurd ho.refused (Nat.lt_irrefl _)) fun ⟨_, failing⟩ => ?_
    exact absurd working (Nat.ne_of_gt failing)

/-- A refusal orphans something. -/
theorem Refuses.orphaned {v : Event} (hc : r.Coherent) (h : r.Refuses v) :
    ∃ ni k, Orphaned r (r.step v) ni k := by
  obtain ⟨kind, hgrew⟩ := h
  have hstep := step_cases hc v
  generalize r.step v = s at hgrew hstep
  cases hstep with
  | cleared _ clearing => exact clearing.orphans hgrew
  | edited h | wired _ h => exact absurd kind (by simp [h])
  | failing => contradiction

end Rib

namespace History

open Rib

variable {h : History} {ni : String} {k : EntryKey}

/-- A bulk removal has orphaned the key, and after every event since the key was as that removal left it. -/
def LeftBehind (h : History) (ni : String) (k : EntryKey) : Prop :=
  ∃ es v fs, h.events = es ++ v :: fs ∧ v.isRemoval ∧
    Orphaned (h.before es).rib (h.before (es ++ [v])).rib ni k ∧
    ∀ gs, gs <+: fs → (h.before (es ++ v :: gs)).rib.installed? ni k = none ∧
      (h.before (es ++ v :: gs)).rib.programmed? ni k = (h.before es).rib.programmed? ni k

theorem LeftBehind.of_orphaned {es : List Event} {v : Event} (kind : v.isRemoval)
    (ho : Orphaned (h.before es).rib (h.before (es ++ [v])).rib ni k) :
    (h.before (es ++ [v])).LeftBehind ni k := by
  refine ⟨es, v, [], rfl, kind, ho, fun gs hgs => ?_⟩
  rw [List.prefix_nil.1 hgs]
  exact ⟨ho.gone, ho.stays⟩

theorem LeftBehind.concat {es : List Event} {v : Event} (hleft : (h.before es).LeftBehind ni k)
    (hinstalled : (h.before (es ++ [v])).rib.installed? ni k = (h.before es).rib.installed? ni k)
    (hprogrammed : (h.before (es ++ [v])).rib.programmed? ni k = (h.before es).rib.programmed? ni k) :
    (h.before (es ++ [v])).LeftBehind ni k := by
  obtain ⟨ds, w, fs, rfl, kind, ho, hsince⟩ : ∃ ds w fs, es = ds ++ w :: fs ∧ _ := hleft
  refine ⟨ds, w, fs ++ [v], by simp [before], kind, ho, fun gs hgs => ?_⟩
  rcases List.prefix_concat_iff.1 hgs with rfl | hgs
  · obtain ⟨hgone, hstays⟩ := hsince fs (List.prefix_refl _)
    have happend : ds ++ w :: (fs ++ [v]) = ds ++ w :: fs ++ [v] := by simp
    rw [happend]
    exact ⟨hinstalled.trans hgone, hprogrammed.trans hstays⟩
  · exact hsince gs hgs

theorem LeftBehind.stale (hleft : h.LeftBehind ni k) : h.rib.Stale ni k := by
  obtain ⟨es, v, fs, hevents, kind, ho, hsince⟩ := hleft
  obtain ⟨hgone, hstays⟩ := hsince fs (List.prefix_refl _)
  have hself : h.before (es ++ v :: fs) = h := by rw [← hevents]; rfl
  rw [hself] at hgone hstays
  have hstale := ho.stale (h.before es).coherent
  exact ⟨by rw [hstays, ← ho.stays]; exact hstale.1, hgone⟩

theorem leftBehind_of_stale (h : History) (es : List Event) (hstale : (h.before es).rib.Stale ni k) :
    (h.before es).LeftBehind ni k := by
  induction es using List.reverseRecOn with
  | nil =>
    have := hstale.1
    rw [show (h.before []).rib.programmed? ni k = none from programmed?_create ..] at this
    contradiction
  | append_singleton es v ih =>
    have hstep := step_cases (h.before es).coherent v
    rw [← rib_concat] at hstep
    rcases hstep.agree ni k with ⟨hi, hp⟩ | hsame | ⟨kind, horphan⟩
    · refine (ih ⟨hp ▸ hstale.1, hi ▸ hstale.2⟩).concat hi hp
    · exact absurd hstale (not_stale_of_same hsame)
    · exact .of_orphaned kind horphan

theorem stale_iff (h : History) (ni : String) (k : EntryKey) : h.rib.Stale ni k ↔ h.LeftBehind ni k :=
  ⟨h.leftBehind_of_stale h.events, LeftBehind.stale⟩

/-- No moment of a history has a stale entry exactly when no bulk removal in it was refused anything. -/
theorem never_stale_iff (h : History) :
    (∀ es, es <+: h.events → ∀ ni k, ¬(h.before es).rib.Stale ni k) ↔
      ∀ es v, es ++ [v] <+: h.events → ¬(h.before es).rib.Refuses v := by
  constructor
  · intro hnever es v hes hrefuses
    obtain ⟨ni, k, ho⟩ := hrefuses.orphaned (h.before es).coherent
    rw [← rib_concat] at ho
    exact hnever _ hes ni k (ho.stale (h.before es).coherent)
  · intro hnone es hes ni k hstale
    obtain ⟨ds, v, fs, rfl, kind, ho, -⟩ : ∃ ds v fs, es = ds ++ v :: fs ∧ _ :=
      h.leftBehind_of_stale es hstale
    refine hnone ds v (List.IsPrefix.trans ⟨fs, by simp⟩ hes) ⟨kind, ?_⟩
    rw [← rib_concat]
    exact ho.refused

/-- An entry is stale exactly when a bulk removal has left it behind; a programmed decision follows an
installed route or one left behind; nothing is ever stale exactly when no bulk removal is refused anything;
and a single removal orphans its key exactly when nothing refers to the key and a failure is pending. -/
theorem stale_exactly (h : History) :
    (∀ ni k, h.rib.Stale ni k ↔ h.LeftBehind ni k) ∧
    (∀ ni dst d, h.rib.plane.lookup ni dst = some d → d.programmed →
      (h.rib.installed? ni (.ipv4 d.route)).isSome ∨ h.LeftBehind ni (.ipv4 d.route)) ∧
    ((∀ es, es <+: h.events → ∀ ni k, ¬(h.before es).rib.Stale ni k) ↔
      ∀ es v, es ++ [v] <+: h.events → ¬(h.before es).rib.Refuses v) ∧
    ∀ ni k, Orphaned h.rib (h.rib.discard ni k).2 ni k ↔
      (∃ a, h.rib.instances.get? ni = some a ∧ a.holders? k = some 0) ∧ 0 < h.rib.plane.failures := by
  refine ⟨h.stale_iff, fun ni dst d hlookup hd => ?_, h.never_stale_iff, orphaned_discard_iff h.coherent⟩
  obtain ⟨group, hroute⟩ := ForwardingPlane.route_of_lookup hlookup hd
  rw [← stale_iff]
  cases hinstalled : h.rib.installed? ni (.ipv4 d.route) with
  | some e => exact .inl rfl
  | none => exact .inr ⟨Option.isSome_iff_exists.2 ⟨_, hroute⟩, hinstalled⟩

theorem stale_exactly_oneRoute :
    (oneRoute [.failNext 3, .flush "DEFAULT"]).rib.Stale "DEFAULT" (.ipv4 documentation) ∧
    (oneRoute [.failNext 3, .flush "DEFAULT"]).LeftBehind "DEFAULT" (.ipv4 documentation) := by
  have hstale : (oneRoute [.failNext 3, .flush "DEFAULT"]).rib.Stale "DEFAULT" (.ipv4 documentation) :=
    ⟨rfl, rfl⟩
  exact ⟨hstale, ((stale_exactly _).1 _ _).1 hstale⟩

/-- A flush that the hardware refuses reports that nothing remains, and packets still follow the route. -/
theorem flush_leaves_route :
    ((oneRoute [.failNext 3]).rib.flush "DEFAULT").1 = ⟨3, 0⟩ ∧
    (oneRoute [.failNext 3, .flush "DEFAULT"]).rib.entries "DEFAULT" = [] ∧
    (oneRoute [.failNext 3, .flush "DEFAULT"]).rib.Stale "DEFAULT" (.ipv4 documentation) ∧
    (oneRoute [.failNext 3, .flush "DEFAULT"]).rib.plane.lookup "DEFAULT" ⟨0xCB007101⟩ =
      some ⟨"Ethernet4", .v4 ⟨0xC0000206⟩, documentation, true⟩ :=
  ⟨by decide +kernel, by decide +kernel, ⟨by decide +kernel, by decide +kernel⟩, by decide +kernel⟩

end History

end RouteProgramming
