import RouteProgramming.Proofs.Responder.Authority
import RouteProgramming.Proofs.Rib.Ownership

/-! Who may flush. Once an id was ever presented, a flush that does not override
the election is carried out for an id that is not below the primary one, and for
no id at all where no open session holds an election. The primary id outlives
its session, and so do entries that are preserved: those are then protected from
lower ids, and not from a request without any. A flush that is turned down
changes nothing; one that is carried out leaves no row in its target. -/

namespace RouteProgramming

/-- The network instances that a flush is for. -/
def FlushTarget.Covers (target : FlushTarget) (ni : String) : Prop :=
  match target with
  | .all => True
  | .networkInstance name => ni = name

namespace Responder

variable {r : Responder} {request : FlushRequest} {target : FlushTarget}

/-- What the election asks for a flush that does not override it. -/
def MayFlush (r : Responder) (request : FlushRequest) : Prop :=
  match request.electionId with
  | some id => id.isZero = false ∧ ∀ p, r.primary = some p → p ≤ id
  | none => ∀ client params, r.parameters? client = some params → params.redundancy = .allPrimary

def Knows (r : Responder) (target : FlushTarget) : Prop :=
  ∀ name, target = .networkInstance name → r.rib.has name

theorem not_any_elective_iff : r.settled.any (·.2.redundancy == .singleElectedPrimary) = false ↔
    ∀ client params, r.parameters? client = some params → params.redundancy = .allPrimary := by
  simp only [List.any_eq_false, Prod.forall, mem_settled_iff, beq_iff_eq]
  refine forall_congr' fun client => forall_congr' fun params => forall_congr' fun _ => ?_
  cases params.redundancy <;> simp

theorem checkFlush_ok_iff (plain : request.electionOverride = false) :
    r.checkFlush request = .ok () ↔ r.MayFlush request := by
  rw [checkFlush, plain, MayFlush]
  cases hid : request.electionId with
  | none =>
    rw [← not_any_elective_iff]
    cases r.settled.any (·.2.redundancy == .singleElectedPrimary) <;> simp
  | some id =>
    cases hzero : id.isZero with
    | true => cases r.primary <;> simp [hzero]
    | false =>
      cases r.primary with
      | none => simp [hzero]
      | some p => by_cases hlt : id < p <;> simp [hzero, hlt, ← ElectionId.not_lt]

theorem flushTargets_ok_iff : (∃ targets, r.flushTargets target = .ok targets) ↔ r.Knows target := by
  cases target with
  | all => exact iff_of_true ⟨_, rfl⟩ nofun
  | networkInstance name =>
    rw [flushTargets, Knows]
    cases h : r.rib.has name <;> simp [h]

theorem flush_of_ok {targets : List String} (check : r.checkFlush request = .ok ())
    (known : r.flushTargets request.target = .ok targets) :
    ∃ response, r.flush request = .ok (response, { r with rib := (r.rib.flushAll targets).2 }) := by
  rw [flush, check, known]
  exact ⟨_, rfl⟩

theorem flushed_iff (plain : request.electionOverride = false) :
    (∃ response s, r.flush request = .ok (response, s)) ↔ r.MayFlush request ∧ r.Knows request.target := by
  rw [← checkFlush_ok_iff plain, ← flushTargets_ok_iff]
  constructor
  · rintro ⟨response, s, h⟩
    obtain ⟨targets, check, known, -⟩ := flush_ok h
    exact ⟨check, targets, known⟩
  · rintro ⟨check, targets, known⟩
    obtain ⟨response, h⟩ := flush_of_ok check known
    exact ⟨response, _, h⟩

/-- A flush leaves no row in its target. -/
theorem row?_flush_iff {response : FlushResponse} {s : Responder} {ni : String} {k : EntryKey}
    {i : Installed Entry} (hc : r.rib.Coherent) (h : r.flush request = .ok (response, s)) :
    s.rib.row? ni k = some i ↔ r.rib.row? ni k = some i ∧ ¬ request.target.Covers ni := by
  obtain ⟨targets, -, known, rfl⟩ := flush_ok h
  rw [Rib.row?_flushAll_iff hc]
  refine and_congr_right fun hi => not_congr ?_
  generalize request.target = target at known
  cases target with
  | all =>
    obtain rfl := Except.ok.inj known
    exact iff_of_true (Rib.mem_networkInstances_of_row hi) trivial
  | networkInstance name =>
    rw [flushTargets] at known
    split at known
    case isTrue =>
      obtain rfl := Except.ok.inj known
      exact List.mem_singleton
    case isFalse => contradiction

end Responder

namespace Chronicle

open Responder

/-- A flush that does not override the election is carried out exactly if it may be and its target is known; one
with an unknown target never is. What is turned down changes nothing, and what is carried out leaves no row in
its target and all others as they are. -/
theorem flush_exactly_if_authorised (h : Chronicle) (request : FlushRequest) :
    (request.electionOverride = false → ((∃ response s, h.responder.flush request = .ok (response, s)) ↔
      h.responder.MayFlush request ∧ h.responder.Knows request.target)) ∧
    (¬ h.responder.Knows request.target → ∃ e, h.responder.flush request = .error e) ∧
    (∀ e, h.responder.flush request = .error e → (h.service.step (.flush request)).2 = h.service) ∧
    (∀ response s, h.responder.flush request = .ok (response, s) →
      (h.service.step (.flush request)).2 = ⟨s, h.service.duties⟩ ∧
      ∀ ni k i, s.rib.row? ni k = some i ↔
        h.responder.rib.row? ni k = some i ∧ ¬ request.target.Covers ni) := by
  refine ⟨flushed_iff, fun unknown => ?_, fun e refused => ?_, fun response s accepted => ⟨?_, fun ni k i => ?_⟩⟩
  · cases hflush : h.responder.flush request with
    | error e => exact ⟨e, rfl⟩
    | ok out =>
      obtain ⟨targets, -, known, -⟩ := flush_ok hflush
      exact absurd (flushTargets_ok_iff.1 ⟨targets, known⟩) unknown
  · rw [Service.step, show h.service.responder.flush request = .error e from refused]
  · rw [Service.step, show h.service.responder.flush request = .ok (response, s) from accepted]
  · exact row?_flush_iff h.coherent accepted

/-! ### An example -/

/-- A client presents 0:5, writes an entry that is to be preserved, and leaves. -/
def legacy (events : List Service.Event) : Chronicle where
  config := {}
  events :=
    let params : Parameters := { redundancy := .singleElectedPrimary, persistence := .preserve }
    .connect :: .request 1 { params, electionId := some ⟨0, 5⟩, operations := [writeNextHop none] } ::
      Service.turns 1 2 ++ .hangUp 1 :: events

/-- A flush of everything that does not override the election. -/
def plainFlush (electionId : Option ElectionId) : FlushRequest where
  target := .all
  electionOverride := false
  electionId

/-- An id below the primary one does not flush what was preserved. -/
theorem flush_exactly_if_authorised_legacy :
    (plainFlush (some ⟨0, 1⟩)).electionOverride = false ∧
    ¬ (∃ response s, (legacy []).responder.flush (plainFlush (some ⟨0, 1⟩)) = .ok (response, s)) ∧
    ∃ e, (legacy []).responder.flush (plainFlush (some ⟨0, 1⟩)) = .error e ∧
      ((legacy []).service.step (.flush (plainFlush (some ⟨0, 1⟩)))).2 = (legacy []).service := by
  have hprimary : (legacy []).responder.primary = some ⟨0, 5⟩ := by decide +kernel
  have hexactly := (legacy []).flush_exactly_if_authorised (plainFlush (some ⟨0, 1⟩))
  have hbarred : ¬ (legacy []).responder.MayFlush (plainFlush (some ⟨0, 1⟩)) :=
    fun hmay => absurd (hmay.2 _ hprimary) (by decide)
  have hrefused : ¬ (∃ response s, (legacy []).responder.flush (plainFlush (some ⟨0, 1⟩)) = .ok (response, s)) :=
    fun hcarried => hbarred ((hexactly.1 rfl).1 hcarried).1
  refine ⟨rfl, hrefused, ?_⟩
  cases hflush : (legacy []).responder.flush (plainFlush (some ⟨0, 1⟩)) with
  | error e => exact ⟨e, rfl, hexactly.2.2.1 e hflush⟩
  | ok out => exact absurd ⟨out.1, out.2, hflush⟩ hrefused

/-- No id at all does. -/
theorem flush_without_id :
    (legacy []).responder.primary = some ⟨0, 5⟩ ∧
    (legacy []).responder.rib.installed? "DEFAULT" (.nextHop 42) = some (writeNextHop none).entry ∧
    ((legacy []).responder.flush (plainFlush none)).toOption.isSome ∧
    (legacy [.flush (plainFlush none)]).responder.rib.installed? "DEFAULT" (.nextHop 42) = none :=
  ⟨by decide +kernel, by decide +kernel, by decide +kernel, by decide +kernel⟩

end Chronicle

end RouteProgramming
