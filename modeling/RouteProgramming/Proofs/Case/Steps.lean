import RouteProgramming.Case.Run
import RouteProgramming.Proofs.Client.Accounts

/-! Parts of a case that come to their end. A part either ends with a result, or
ends the case; what holds after one part is what the next one starts from. The
calls of the client, its waits and the checks are stated here for any run; a
check that passes changes nothing. -/

namespace RouteProgramming

namespace CaseStep

variable {α β : Type} {x : CaseStep α} {f : α → CaseStep β} {run : CaseRun} {p q : α → CaseRun → Prop}
  {s : β → CaseRun → Prop}

/-- The part comes to its end, with a result and in a run that are as described. -/
def Ends (x : CaseStep α) (run : CaseRun) (post : α → CaseRun → Prop) : Prop :=
  ∃ a after, x.run run = (.ok a, after) ∧ post a after

theorem Ends.mono (h : Ends x run p) (hpq : ∀ a after, p a after → q a after) : Ends x run q := by
  obtain ⟨a, after, hx, ha⟩ := h
  exact ⟨a, after, hx, hpq a after ha⟩

theorem Ends.bind (h : Ends x run p) (hf : ∀ a after, p a after → Ends (f a) after s) : Ends (x >>= f) run s := by
  obtain ⟨a, after, hx, ha⟩ := h
  obtain ⟨b, last, hb, hs⟩ := hf a after ha
  refine ⟨b, last, ?_, hs⟩
  rw [← hb]
  exact congrArg (fun out => ExceptT.bindCont f out.1 out.2) hx

/-- A part that leaves the run as it is. -/
theorem Ends.seq (h : Ends x run fun _ after => after = run) (hf : ∀ a, Ends (f a) run s) : Ends (x >>= f) run s :=
  h.bind fun a after hafter => by
    rw [hafter]
    exact hf a

theorem Ends.stay (h : Ends x run fun _ after => after = run) (hp : ∀ a, p a run) : Ends x run p :=
  h.mono fun a after hafter => by
    rw [hafter]
    exact hp a

theorem Ends.pure {a : α} (h : p a run) : Ends (pure a) run p := ⟨a, run, rfl, h⟩

theorem Ends.get_bind {f : CaseRun → CaseStep β} (h : Ends (f run) run s) : Ends (get >>= f) run s := h

theorem Ends.modify (change : CaseRun → CaseRun) : Ends (modify change) run fun _ after => after = change run :=
  ⟨(), change run, rfl, rfl⟩

theorem Ends.tryCatch {handler : SuiteError → CaseStep α} (h : Ends x run p) : Ends (tryCatch x handler) run p := by
  obtain ⟨a, after, hx, ha⟩ := h
  refine ⟨a, after, ?_, ha⟩
  rw [ExceptT.run_tryCatch]
  change (StateT.bind x.run _) run = _
  rw [StateT.bind, hx]
  rfl

theorem Ends.discard (h : Ends x run p) : Ends (discard x) run fun _ after => ∃ a, p a after := by
  have hbind : Functor.discard x = x >>= fun _ => Pure.pure () := by
    rw [Functor.discard, LawfulFunctor.map_const, Function.comp_apply, map_eq_pure_bind]
  rw [hbind]
  exact h.bind fun a after ha => .pure ⟨a, ha⟩

end CaseStep

/-! ### Calls -/

namespace Client

variable {c : Client} {r s : Responder} {session : ClientId} {inbox : List ModifyResponse}

theorem send_of_handle (on : c.stream = some ⟨.device session, inbox⟩) (opened : r.isOpen session)
    {request : ModifyRequest} {responses : List ModifyResponse}
    (handled : r.handle session request = (responses, s)) :
    c.send r request = (.ok (), { c with stream := some ⟨.device session, inbox ++ responses⟩ }, s) := by
  rw [send, on]
  dsimp only
  rw [if_pos opened, handled]

theorem modify_of_handle (on : c.stream = some ⟨.device session, inbox⟩) (opened : r.isOpen session)
    {batch : List (OperationType × EntryDraft)} {built : List (OperationType × String × Entry)}
    (reads : buildAll batch = .ok built) {responses : List ModifyResponse}
    (handled : r.handle session { operations := (c.number built).1 } = (responses, s)) :
    c.modify r batch = (.ok ((c.number built).1.map (·.id)),
      ({ (c.number built).2 with stream := some ⟨.device session, inbox ++ responses⟩ } : Client).owed
        ((c.number built).1.map (·.id)), s) := by
  have hon : (c.number built).2.stream = some ⟨.device session, inbox⟩ := on
  rw [modify, reads]
  dsimp only
  rw [send_of_handle hon opened handled]

theorem accept_results (acks : List Acknowledgment) (c : Client) :
    c.accept { results := acks } = (.ok (), acks.foldl acceptAcknowledgment c) := rfl

theorem awaitFrom_of_isEmpty {channel : Channel} (closed : Bool) (timeout : Nat) (inbox : List ModifyResponse)
    (free : c.pending.isEmpty) :
    awaitFrom channel closed timeout inbox c = (.ok (), { c with stream := some ⟨channel, inbox⟩ }) := by
  unfold awaitFrom
  exact if_pos free

/-- A wait for one message with all acknowledgments that are owed. -/
theorem await_acknowledgments {channel : Channel} {acks : List Acknowledgment} (nonempty : acks ≠ [])
    (distinct : (acks.map (·.id)).Nodup) {owed : KeySet UInt64} (lists : KeySet.Lists owed (acks.map (·.id)))
    (on : c.stream = some ⟨channel, [{ results := acks }]⟩) (pending : c.pending = { operations := owed })
    (timeout : Nat) : c.await r timeout = (.ok (), { c with
      stream := some ⟨channel, []⟩
      pending := {}
      results := c.results ++ acks.map .ofAcknowledgment }) := by
  have hbusy : ¬c.pending.isEmpty := by
    rw [pending, Pending.isEmpty, beq_iff_eq]
    intro hcount
    have hsize : owed.size = 0 := (Nat.zero_add _).symm.trans hcount
    exact nonempty (List.map_eq_nil_iff.1 (lists.eq_nil hsize))
  have hnone : (acks.map (·.id)).foldl (fun s id => s.erase id) owed = ∅ := by
    rw [← List.append_nil (acks.map (·.id))] at lists distinct
    exact (lists.erase_all distinct).eq_empty
  rw [await, on]
  dsimp only
  rw [awaitFrom]
  dsimp only
  rw [if_neg hbusy, accept_results, foldl_acceptAcknowledgment]
  dsimp only
  rw [pending]
  dsimp only
  rw [hnone, awaitFrom_of_isEmpty _ _ _ rfl]

end Client

/-! ### The tester -/

/-- The flow that the cases send. -/
def Case.flow : Flow := ⟨Testbed.sourceEnd.name, Testbed.destinationNetwork⟩

namespace Tester

variable {t : Tester} {d : Device} {n : Nat}

/-- The tester with the suite's flow as its only one. -/
def flowing (t : Tester) (running : Option Nat) : Tester :=
  { t with flows := .ofList [(Case.flowName, Case.flow)], running }

/-- The tester after it has sent so many frames and lost none. -/
def served (t : Tester) (n : Nat) : Tester :=
  { t.flowing none with counters := t.counters.insert Case.flowName ⟨Case.flowName, n, n⟩ }

/-- What it takes to send the suite's flow. -/
structure Prepared (t : Tester) : Prop where
  source : t.topology.interfaces.contains Case.flow.source
  network : t.topology.networks.contains Case.flow.destination
  only : t.flows.insert Case.flowName Case.flow = .ofList [(Case.flowName, Case.flow)]
  stopped : t.running = none

theorem Prepared.addFlow (h : t.Prepared) :
    t.addFlow Case.flowName Case.flow.source Case.flow.destination = .ok (t.flowing none) := by
  have honly : t.flows.insert Case.flowName ⟨Case.flow.source, Case.flow.destination⟩ = _ := h.only
  simp [Tester.addFlow, h.source, h.network, honly, flowing, h.stopped]

theorem stop_flowing {clock : Clock} {milliseconds : Nat} (counted : clock t.ratePps milliseconds = n)
    (carried : t.runFlow d Case.flowName Case.flow n = .ok ⟨Case.flowName, n, n⟩) :
    (t.flowing (some milliseconds)).stop d clock = (.ok (), t.served n) := by
  have hflow : (t.flowing none).runFlow d Case.flowName Case.flow n = .ok ⟨Case.flowName, n, n⟩ := carried
  have hrun : runFlows d n [(Case.flowName, Case.flow)] (t.flowing none) = (.ok (), t.served n) := by
    rw [runFlows, hflow]
    rfl
  rw [← hrun, ← counted]
  rfl

end Tester

namespace CaseRun

open CaseStep

variable {run : CaseRun}

theorem ends_call {α : Type} {f : Client → Responder → Except ClientError α × Client × Responder} {a : α}
    {client : Client} {responder : Responder} (h : f run.client run.responder = (.ok a, client, responder)) :
    Ends (call f) run fun b after => b = a ∧ after = { run.setResponder responder with client } := by
  refine ⟨a, { run.setResponder responder with client }, ?_, rfl, rfl⟩
  exact congrArg (fun out => (out.1.mapError SuiteError.client,
    { run.setResponder out.2.2 with client := out.2.1 })) h

theorem ends_await {c : SuiteConfig} (patient : c.awaitMs ≠ 0) (client : Client)
    (h : run.client.await run.responder c.awaitMs = (.ok (), client)) :
    Ends (await c) run fun _ after => after = { run with client } := by
  refine ⟨(), { run with client }, ?_, rfl⟩
  have hwait : ¬(c.awaitMs = 0 ∧ 0 < run.client.pending.count) := fun h => patient h.1
  rw [await]
  dsimp only [ExceptT.run, ExceptT.mk]
  rw [if_neg hwait, h]

/-! ### Checks -/

theorem ends_expectOutcome {a : Acknowledgment} (h : .ofAcknowledgment a ∈ run.client.results) :
    Ends (expectOutcome a.outcome a.id a.op a.key) run fun _ after => after = run := by
  have hfits : Received.expect run.client.results
      { operationId := some a.id, op := some a.op, key := some a.key, outcome := some a.outcome } = .ok () := by
    refine if_pos (List.any_eq_true.2 ⟨_, h, ?_⟩)
    simp [Received.fitsPattern, Received.fits, Received.ofAcknowledgment]
  refine .get_bind ?_
  rw [hfits]
  exact .pure rfl

theorem ends_checkWeights (h : (run.telemetry.group? Case.groupId).map (·.weights) = some [Case.nextHopWeight]) :
    Ends checkWeights run fun _ after => after = run := by
  obtain ⟨g, hg, hweights⟩ := Option.map_eq_some_iff.1 h
  refine .get_bind ?_
  simp only [hg, Option.elim_some, hweights, List.mergeSort_singleton, ne_eq, not_true_eq_false, if_false]
  exact .pure rfl

theorem ends_checkRoute (h : (run.telemetry.ipv4? Testbed.destinationPrefix).isSome) :
    Ends checkRoute run fun _ after => after = run := by
  refine .get_bind ?_
  rw [Option.isNone_eq_false_iff.2 h]
  exact .pure rfl

/-! ### Traffic -/

theorem ends_tester {f : Tester → Device → Except TrafficFault Unit × Tester} {t : Tester}
    (h : f run.testbed.tester run.testbed.device = (.ok (), t)) :
    Ends (tester f) run fun _ after => after = { run with testbed.tester := t } := by
  refine ⟨(), { run with testbed.tester := t }, ?_, rfl⟩
  exact congrArg (fun out => (out.1.mapError SuiteError.traffic, { run with testbed.tester := out.2 })) h

/-- If the device carries the suite's flow, the check sends so many frames as the clock counts, and passes. -/
theorem ends_checkTraffic {c : SuiteConfig} {clock : Tester.Clock} {n : Nat} (prepared : run.testbed.tester.Prepared)
    (counted : clock run.testbed.tester.ratePps c.trafficMs = n) (sent : 0 < n)
    (carried : run.testbed.tester.runFlow run.testbed.device Case.flowName Case.flow n =
      .ok ⟨Case.flowName, n, n⟩) :
    Ends (checkTraffic c clock) run fun _ after => after = { run with
      testbed.tester := run.testbed.tester.served n
      flows := run.flows ++ [⟨Case.flowName, n, n⟩]
      elapsedMs := run.elapsedMs + c.trafficMs } := by
  refine (ends_tester (t := run.testbed.tester.flowing none) ?_).bind fun _ _ hafter => ?_
  · have hadd : run.testbed.tester.addFlow Case.flowName Testbed.sourceEnd.name Testbed.destinationNetwork = _ :=
      prepared.addFlow
    dsimp only
    rw [hadd]
  subst hafter
  refine (ends_tester (t := run.testbed.tester.flowing (some 0)) rfl).bind fun _ _ hafter => ?_
  subst hafter
  refine (Ends.modify _).bind fun _ _ hafter => ?_
  subst hafter
  refine (ends_tester (t := run.testbed.tester.served n) ?_).bind fun _ _ hafter => ?_
  · have hcounted : clock run.testbed.tester.ratePps (0 + c.trafficMs) = n := by rw [Nat.zero_add, counted]
    exact Tester.stop_flowing hcounted carried
  subst hafter
  refine .get_bind ?_
  have hcounters : (run.testbed.tester.served n).counters.get? Case.flowName = some ⟨Case.flowName, n, n⟩ :=
    Table.get?_insert_self ..
  have hlossless : FlowCounters.isLossy ⟨Case.flowName, n, n⟩ = false := by
    simp [FlowCounters.isLossy, Nat.ne_of_gt sent]
  dsimp only
  rw [hcounters]
  dsimp only
  rw [hlossless]
  exact .modify _

end CaseRun

end RouteProgramming
