import RouteProgramming.Proofs.Case.Scripts
import RouteProgramming.Proofs.Responder.Persistence

/-! The suite is repeatable. A new testbed is idle, and a case that is run on an
idle testbed passes and leaves it idle: all that stays behind are numbers that
have been given out, and what the tester has counted. So whatever was run
before, a case reports what its settings and its clock determine. -/

namespace RouteProgramming

open CaseStep

/-! ### One session -/

namespace CaseRun

variable {c : SuiteConfig} {persistence : Persistence} {clock : Tester.Clock} {run : CaseRun}

/-- A session on an idle testbed comes to its end, and what is still installed then is its own. -/
theorem session_passes {n : Nat} (idle : run.testbed.Idle c)
    (client : run.client = { connection := connection c persistence }) (spotless : run.failures = [])
    (patient : c.awaitMs ≠ 0) (counts : clock c.traffic.ratePps c.trafficMs = n) (sent : 0 < n) (case : Case) :
    ∃ after last table, session c clock persistence case run = (none, after) ∧
      after.Serving c persistence run.responder.nextClient last table
        (introductions ++ (case.answers (installed c)).map .ofAcknowledgment) ∧
      after.flows = run.flows ++ case.counted n ∧
      (∀ k x, table.get? k = some x → x.owner = run.responder.nextClient) ∧
      (persistence = .preserve → table = ∅) := by
  obtain ⟨_, first, hfirst, hserving, hflows⟩ := ends_negotiate patient idle client spotless
  have hstart : first.Reached c persistence run.responder.nextClient 0 [] [] run.flows := ⟨hserving, hflows⟩
  obtain ⟨_, second, hsecond, last, hend⟩ := hstart.ends_perform patient counts sent case
  -- Under `delete` the entries stay until the session ends, under `preserve` they are flushed before.
  cases persistence with
  | delete =>
    refine ⟨second, last, _, ?_, hend.toServing, hend.counted, fun k x hx => ?_, nofun⟩
    · rw [session, hfirst]
      dsimp only
      rw [hsecond]
    · obtain ⟨e, -, -, rfl⟩ := Case.mem_of_page hx
      rfl
  | preserve =>
    obtain ⟨_, third, hthird, hflushed, hsame⟩ := hend.ends_flushAll
    refine ⟨third, last, ∅, ?_, hflushed, hsame.trans hend.counted, nofun, fun _ => rfl⟩
    rw [session, hfirst]
    dsimp only
    rw [hsecond]
    dsimp only
    rw [hthird]

end CaseRun

/-- What a client receives in a case: the answers to its parameters and its election id, and those to the case's
operations. -/
def Case.results (ribAckOnly : Bool) (case : Case) : List Received :=
  [{ params := some .ok }, { electionId := some ⟨0, 1⟩ }] ++
    (case.answers (if ribAckOnly then .installedInRib else .installedInFib)).map .ofAcknowledgment

theorem Case.counts_of_counted {case : Case} {n : Nat} {f : FlowCounters} (h : f ∈ case.counted n) :
    f.sent = n ∧ f.received = n := by
  rw [counted] at h
  split at h
  · rw [List.mem_singleton.1 h]
    exact ⟨rfl, rfl⟩
  · contradiction

/-- The report of a case in which everything is as it should be. -/
structure CaseReport.Clean (c : SuiteConfig) (case : Case) (clock : Tester.Clock) (report : CaseReport) : Prop where
  passed : report.outcome = .passed
  spotless : report.failures = []
  results : report.results = case.results c.deviations.ribAckOnly
  flows : report.flows = case.counted (clock c.traffic.ratePps c.trafficMs)
  lossless : ∀ f ∈ report.flows, 0 < f.sent ∧ f.received = f.sent

namespace Testbed

variable {c : SuiteConfig} {t : Testbed}

theorem Idle.runCase (h : t.Idle c) (patient : c.awaitMs ≠ 0) {clock : Tester.Clock}
    (counts : 0 < clock c.traffic.ratePps c.trafficMs) (persistence : Persistence) (case : Case) :
    (t.runCase c persistence case clock).1.Clean c case clock ∧ (t.runCase c persistence case clock).2.Idle c := by
  let start : CaseRun := { testbed := t, client := { connection := CaseRun.connection c persistence } }
  have hstart : start.testbed.Idle c := h
  obtain ⟨after, last, table, hsession, hserving, hflows, howned, hflushed⟩ :=
    CaseRun.session_passes hstart rfl rfl patient rfl counts case
  obtain ⟨hresults, hidle⟩ := hserving.idle_of_stop howned hflushed
  have hrun : t.runCase c persistence case clock = (({
      name := case.name
      description := case.description
      persistence
      failures := after.failures
      results := (after.client.stop after.responder).1.results
      flows := after.flows } : CaseReport).finish none after.elapsedMs,
      (after.setResponder (after.client.stop after.responder).2).testbed) := by
    rw [Testbed.runCase, hsession]
  rw [hrun, hserving.spotless, hresults, hflows]
  refine ⟨⟨rfl, rfl, rfl, rfl, fun f hf => ?_⟩, hidle⟩
  obtain ⟨hsent, hreceived⟩ := Case.counts_of_counted hf
  rw [hsent, hreceived]
  exact ⟨counts, rfl⟩

/-! ### Any number of cases -/

/-- A call of the suite: a case, and a clock that counts at least one frame for its flow. -/
structure Call where
  persistence : Persistence
  case : Case
  clock : Tester.Clock
  counts : ∀ ratePps milliseconds, 0 < clock ratePps milliseconds

def call (t : Testbed) (c : SuiteConfig) (call : Call) : CaseReport × Testbed :=
  t.runCase c call.persistence call.case call.clock

def callAll (t : Testbed) (c : SuiteConfig) (calls : List Call) : Testbed := calls.foldl (fun t k => (t.call c k).2) t

theorem Idle.call (h : t.Idle c) (patient : c.awaitMs ≠ 0) (call : Call) :
    (t.call c call).1.Clean c call.case call.clock ∧ (t.call c call).2.Idle c :=
  h.runCase patient (call.counts ..) call.persistence call.case

theorem Idle.callAll (h : t.Idle c) (patient : c.awaitMs ≠ 0) (calls : List Call) : (t.callAll c calls).Idle c := by
  induction calls generalizing t with
  | nil => exact h
  | cons call calls ih => exact ih (h.call patient call).2

/-! ### A new testbed -/

/-- The settings of an interface of the device, enabled explicitly or by default. -/
def settings (explicit : Bool) (name description : String) (address : Ipv4) : InterfaceSettings :=
  let enabled := if explicit then some true else none
  { name, description, enabled, ipv4Enabled := enabled, address, length := 30 }

end Testbed

end RouteProgramming
