import RouteProgramming.Proofs.Responder.Flush
import RouteProgramming.Proofs.Responder.Persistence
import RouteProgramming.Proofs.Rib.Clearance

/-! Flushes are complete and confined. In every RIB with a history a flush leaves
its network instance empty and the others as they were, whatever failures are
pending and whatever is injected while it goes on. So a flush that is carried
out has nothing to report but success. -/

namespace RouteProgramming

open Rib

namespace Responder

variable {r s : Responder} {request : FlushRequest} {response : FlushResponse}

/-- No flush finds anything that it has to leave. -/
theorem outcome_flush (hc : r.rib.Coherent) (h : r.flush request = .ok (response, s)) : response.outcome = .ok := by
  rw [Responder.flush] at h
  cases hcheck : r.checkFlush request with
  | error e => rw [hcheck] at h; contradiction
  | ok =>
    cases htargets : r.flushTargets request.target with
    | error e => rw [hcheck, htargets] at h; contradiction
    | ok targets =>
      have hremaining := remaining_flushAll hc targets
      rw [hcheck, htargets] at h
      cases h
      exact if_pos hremaining

theorem entries_flush {ni : String} (hc : r.rib.Coherent) (h : r.flush request = .ok (response, s))
    (covered : request.target.Covers ni) : s.rib.entries ni = [] := by
  apply entries_eq_nil
  intro k
  refine Option.eq_none_iff_forall_ne_some.2 fun i hi => ?_
  exact ((row?_flush_iff hc h).1 hi).2 covered

end Responder

/-- A flush of a known network instance empties it, counts what was there, leaves nothing over and touches no
other one, in one go or with failures injected between any two of its removals; and every flush that is carried
out for a client is answered by success. -/
theorem flush_complete (h : History) (c : Chronicle) :
    (∀ ni a, h.rib.instances.get? ni = some a → h.rib.Vacated ni a (h.rib.flush ni) ∧
      ∀ es, Interrupted ni (removalKeys a none) es → h.rib.Vacated ni a (h.rib.removals es, h.rib.run es)) ∧
    (∀ request response s, c.responder.flush request = .ok (response, s) →
      response.outcome = .ok ∧ ∀ ni, request.target.Covers ni → s.rib.entries ni = []) := by
  constructor
  · intro ni a known
    exact ⟨flush_vacates h.coherent known, fun es interrupted => interrupted.vacates h.coherent known⟩
  · intro request response s accepted
    exact ⟨Responder.outcome_flush c.coherent accepted, fun ni => Responder.entries_flush c.coherent accepted⟩

/-! ### An example -/

/-- The route goes with the next two withdrawals refused, and with one refused in between. -/
theorem flush_complete_oneRoute :
    ((History.oneRoute [.failNext 2]).rib.flush "DEFAULT").1 = ⟨3, 0⟩ ∧
    ((History.oneRoute []).rib.removals [.discard "DEFAULT" (.ipv4 History.documentation), .failNext 1,
      .discard "DEFAULT" (.nextHopGroup 10), .discard "DEFAULT" (.nextHop 42)]) = ⟨3, 0⟩ ∧
    ∃ response s, (Chronicle.legacy []).responder.flush (Chronicle.plainFlush (some ⟨0, 5⟩)) = .ok (response, s) ∧
      response.outcome = .ok ∧ s.rib.entries "DEFAULT" = [] := by
  obtain ⟨a, known, hsize⟩ : ∃ a, (History.oneRoute [.failNext 2]).rib.instances.get? "DEFAULT" = some a ∧
      a.size = 3 := ⟨_, rfl, rfl⟩
  obtain ⟨b, known', hsize', hkeys⟩ : ∃ b, (History.oneRoute []).rib.instances.get? "DEFAULT" = some b ∧
      b.size = 3 ∧ removalKeys b none = [.ipv4 History.documentation, .nextHopGroup 10, .nextHop 42] :=
    ⟨_, rfl, rfl, rfl⟩
  have hpending := (flush_complete (History.oneRoute [.failNext 2]) (Chronicle.legacy [])).1 _ a known
  have hbetween := (flush_complete (History.oneRoute []) (Chronicle.legacy [])).1 _ b known'
  have interrupted : Interrupted "DEFAULT" (removalKeys b none) [.discard "DEFAULT" (.ipv4 History.documentation),
      .failNext 1, .discard "DEFAULT" (.nextHopGroup 10), .discard "DEFAULT" (.nextHop 42)] := by
    rw [hkeys]
    exact ⟨rfl, by simp [Event.isRemoval]⟩
  refine ⟨hsize ▸ hpending.1.counts, hsize' ▸ (hbetween.2 _ interrupted).counts, ?_⟩
  cases hflush : (Chronicle.legacy []).responder.flush (Chronicle.plainFlush (some ⟨0, 5⟩)) with
  | ok out =>
    obtain ⟨hok, hempty⟩ := (flush_complete (History.oneRoute []) (Chronicle.legacy [])).2 _ _ _ hflush
    exact ⟨out.1, out.2, rfl, hok, hempty _ trivial⟩
  | error e =>
    have haccepted : ((Chronicle.legacy []).responder.flush
        (Chronicle.plainFlush (some ⟨0, 5⟩))).toOption.isSome := by decide +kernel
    rw [hflush] at haccepted
    contradiction

end RouteProgramming
