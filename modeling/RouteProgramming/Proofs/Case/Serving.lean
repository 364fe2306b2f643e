import RouteProgramming.Proofs.Aft.Snapshot
import RouteProgramming.Proofs.Case.Steps
import RouteProgramming.Proofs.Responder.Election
import RouteProgramming.Proofs.Responder.Solo
import RouteProgramming.Proofs.Rib.Page
import RouteProgramming.Proofs.Testbed.Addressing

/-! A case under way. From the first wait to the end of its session a case has
the device to itself, nothing is under way to its client, and what is installed
is a page of records. Each part of a case takes one such state to the next. -/

namespace RouteProgramming

open CaseStep

/-! ### The testbed -/

namespace Testbed

/-- How many entries of a kind the device of a testbed takes. -/
def capacity : Nat := ({} : ResponderConfig).capacity

/-- The fixed addressing, a page of records in the only network instance, and a tester that can send the suite's
flow. -/
structure Ready (t : Testbed) (page : Table EntryKey Record) : Prop where
  wired : t.Wired
  holds : t.device.responder.rib.Holds capacity t.networkInstance page
  prepared : t.tester.Prepared

/-- What the sessions do to the tables leaves the testbed ready. -/
theorem Ready.withResponder {t : Testbed} {page page' : Table EntryKey Record} (h : t.Ready page) {r : Responder}
    (config : r.config = t.device.responder.config)
    (interfaces : r.rib.plane.interfaces = t.device.responder.rib.plane.interfaces)
    (holds : r.rib.Holds capacity t.networkInstance page') : Ready { t with device.responder := r } page' := by
  refine ⟨⟨interfaces.trans h.wired.interfaces, h.wired.settings, h.wired.links, h.wired.topology⟩, ?_, h.prepared⟩
  have hni : Testbed.networkInstance { t with device.responder := r } = t.networkInstance :=
    congrArg ResponderConfig.defaultNetworkInstance config
  rw [hni]
  exact holds

/-- What a testbed is between two cases. -/
structure Idle (c : SuiteConfig) (t : Testbed) : Prop extends Ready t ∅ where
  rate : t.tester.ratePps = c.traffic.ratePps
  supports : t.device.responder.config.fibAckSupported = !c.deviations.ribAckOnly
  alone : t.device.responder.sessions = ∅
  primary : ∀ id, t.device.responder.primary = some id → id = ⟨0, 1⟩

end Testbed

namespace CaseRun

variable {c : SuiteConfig} {persistence : Persistence} {session : ClientId} {last : UInt64}
  {page : Table EntryKey Record} {results : List Received} {run : CaseRun}

/-- A client that has used so many operation ids, is owed nothing and has collected the results. -/
def talking (c : SuiteConfig) (persistence : Persistence) (session : ClientId) (last : UInt64)
    (results : List Received) : Client where
  connection := connection c persistence
  stream := some ⟨.device session, []⟩
  electionId := some ⟨0, 1⟩
  nextOperationId := last + 1
  results

/-- The same client with a batch sent and its answer not yet read. -/
def asking (c : SuiteConfig) (persistence : Persistence) (session : ClientId) (last : UInt64)
    (results : List Received) (acks : List Acknowledgment) : Client :=
  { talking c persistence session last results with
    stream := some ⟨.device session, [{ results := acks }]⟩
    pending := { operations := (acks.map (·.id)).foldl (fun s id => s.insert id ()) ∅ } }

/-- The session of that client. -/
def served (c : SuiteConfig) (persistence : Persistence) (last : UInt64) : Session :=
  { params := some (connection c persistence).params, electionId := some ⟨0, 1⟩, lastOperationId := last }

/-- A run whose session is the only one. -/
structure Serving (c : SuiteConfig) (persistence : Persistence) (session : ClientId) (last : UInt64)
    (page : Table EntryKey Record) (results : List Received) (run : CaseRun) : Prop
    extends run.testbed.Ready page where
  rate : run.testbed.tester.ratePps = c.traffic.ratePps
  supports : run.responder.config.fibAckSupported = !c.deviations.ribAckOnly
  alone : run.responder.sessions = .ofList [(session, served c persistence last)]
  primary : run.responder.primary = some ⟨0, 1⟩
  client : run.client = talking c persistence session last results
  spotless : run.failures = []

/-! ### The negotiation -/

/-- What a client collects while it negotiates. -/
def introductions : List Received := [{ params := some .ok }, { electionId := some ⟨0, 1⟩ }]

/-- A client that has opened its stream. -/
def opened (c : SuiteConfig) (persistence : Persistence) (session : ClientId) : Client where
  connection := connection c persistence
  stream := some ⟨.device session, []⟩
  electionId := some ⟨0, 1⟩

theorem start_opened {r : Responder} (alone : r.sessions = ∅) :
    Client.start { connection := connection c persistence } r = (.ok (), opened c persistence r.nextClient,
      { r with sessions := .ofList [(r.nextClient, {})], nextClient := r.nextClient + 1 }) := by
  have hcheck : (connection c persistence).check = .ok .device := rfl
  rw [Client.start, hcheck]
  dsimp only
  rw [Client.openStream, Responder.connect_alone alone]
  rfl

theorem startSending_opened {r : Responder} (alone : r.sessions = .ofList [(session, {})])
    (supports : r.config.fibAckSupported = !c.deviations.ribAckOnly)
    (primary : ∀ id, r.primary = some id → id = ⟨0, 1⟩) :
    (opened c persistence session).startSending r = (.ok (), { opened c persistence session with
        stream := some ⟨.device session, [{ paramsResult := some .ok }, { electionId := some ⟨0, 1⟩ }]⟩
        pending := { params := true, election := true } }, { r with
        sessions := .ofList [(session, served c persistence 0)]
        primary := some ⟨0, 1⟩ }) := by
  have hvalid : (connection c persistence).params.check = .ok () := by cases persistence <;> rfl
  have hsupported : (connection c persistence).params.ackType = .ribAndFib → r.config.fibAckSupported := by
    rw [supports]
    dsimp only [connection]
    cases c.deviations.ribAckOnly <;> simp
  have hhighest : r.primary.elim ⟨0, 1⟩ (max ⟨0, 1⟩) = (⟨0, 1⟩ : ElectionId) := by
    cases hprimary : r.primary with
    | none => rfl
    | some id =>
      rw [primary id hprimary]
      exact or_self_iff.1 (ElectionId.max_eq _ _)
  have hsingle : (connection c persistence).params.redundancy = .singleElectedPrimary := rfl
  have habove : (⟨0, 1⟩ : ElectionId).check = .ok () := rfl
  have hhandle := Responder.handle_introduction alone hvalid hsupported hsingle habove
  rw [hhighest] at hhandle
  have hon : (opened c persistence session).introduced.stream = some ⟨.device session, []⟩ := rfl
  exact Client.send_of_handle hon (Responder.isOpen_alone alone) hhandle

theorem ends_negotiate (patient : c.awaitMs ≠ 0) (idle : run.testbed.Idle c)
    (client : run.client = { connection := connection c persistence }) (spotless : run.failures = []) :
    Ends (negotiate c) run fun _ after =>
      after.Serving c persistence run.responder.nextClient 0 ∅ introductions ∧ after.flows = run.flows := by
  have hstart : Client.start { connection := connection c persistence } run.responder = _ := start_opened idle.alone
  rw [← client] at hstart
  refine (ends_call hstart).bind fun _ first hfirst => ?_
  have hsend : (opened c persistence run.responder.nextClient).startSending { run.responder with
      sessions := .ofList [(run.responder.nextClient, {})]
      nextClient := run.responder.nextClient + 1 } = _ := startSending_opened rfl idle.supports idle.primary
  rw [hfirst.2]
  refine (ends_call hsend).bind fun _ _ hafter => ?_
  rw [hafter.2]
  refine (ends_await patient (talking c persistence run.responder.nextClient 0 introductions) rfl).mono
    fun _ _ hafter => ?_
  rw [hafter]
  exact ⟨⟨idle.withResponder rfl rfl idle.holds, idle.rate, idle.supports, rfl, rfl, rfl, spotless⟩, rfl⟩

/-! ### Batches -/

/-- The operations of a batch that follows the given id. -/
def operations (ni : String) (last : UInt64) (script : List (OperationType × Entry)) : List Operation :=
  Client.numbered (some ⟨0, 1⟩) (last + 1) (script.map fun s => (s.1, ni, s.2))

theorem mem_numbered {o : Operation} {election? : Option ElectionId} {next : UInt64}
    {built : List (OperationType × String × Entry)} (h : o ∈ Client.numbered election? next built) :
    o.electionId = election? ∧ (o.op, o.networkInstance, o.entry) ∈ built := by
  induction built generalizing next with
  | nil => contradiction
  | cons b built ih =>
    rcases List.mem_cons.1 h with rfl | h
    · exact ⟨rfl, .head _⟩
    · exact ⟨(ih h).1, .tail _ (ih h).2⟩

theorem ids_operations (ni : String) (last : UInt64) (script : List (OperationType × Entry)) :
    (operations ni last script).map (·.id) = (List.range script.length).map (last + 1 + UInt64.ofNat ·) := by
  rw [operations, Client.ids_numbered, List.length_map]

theorem last_ids (last : UInt64) (n : Nat) :
    ((List.range n).map (last + 1 + UInt64.ofNat ·)).getLastD last = last + UInt64.ofNat n := by
  cases n with
  | zero => exact (UInt64.add_zero last).symm
  | succ n =>
    rw [List.range_succ, List.map_append, List.map_singleton, List.getLastD_concat, UInt64.add_assoc, Nat.add_comm n,
      UInt64.ofNat_add]
    rfl

theorem modify_talking {r s : Responder} (opened : r.isOpen session) {batch : List (OperationType × EntryDraft)}
    {ni : String} {script : List (OperationType × Entry)}
    (reads : Client.buildAll batch = .ok (script.map fun s => (s.1, ni, s.2))) {acks : List Acknowledgment}
    (handled : r.handle session { operations := operations ni last script } = ([{ results := acks }], s))
    (ids : acks.map (·.id) = (operations ni last script).map (·.id)) :
    (talking c persistence session last results).modify r batch = (.ok (acks.map (·.id)),
      asking c persistence session (last + UInt64.ofNat script.length) results acks, s) := by
  have hlength : (operations ni last script).length = script.length := by
    rw [← List.length_map (·.id), ids_operations, List.length_map, List.length_range]
  have hnext : last + 1 + UInt64.ofNat (operations ni last script).length =
      last + UInt64.ofNat script.length + 1 := by
    rw [hlength, UInt64.add_assoc, UInt64.add_assoc, UInt64.add_comm 1]
  have hon : (talking c persistence session last results).stream = some ⟨.device session, []⟩ := rfl
  rw [asking, ids]
  dsimp only [talking]
  rw [← hnext]
  exact Client.modify_of_handle hon opened reads handled

theorem await_asking {acks : List Acknowledgment} (nonempty : acks ≠ []) (distinct : (acks.map (·.id)).Nodup)
    (r : Responder) (timeout : Nat) : (asking c persistence session last results acks).await r timeout =
      (.ok (), talking c persistence session last (results ++ acks.map .ofAcknowledgment)) :=
  Client.await_acknowledgments nonempty distinct (KeySet.lists_empty.insert_all _) rfl rfl timeout

/-- What a batch of the script does to the page: the acknowledgments and the page after it. -/
def outcome (c : SuiteConfig) (session : ClientId) (ni : String) (last : UInt64) (page : Table EntryKey Record)
    (script : List (OperationType × Entry)) : List Acknowledgment × Table EntryKey Record :=
  Ledger.turnAll Testbed.capacity session (installed c) page (operations ni last script)

theorem Serving.welcome (h : run.Serving c persistence session last page results)
    {script : List (OperationType × Entry)} {o : Operation} (ho : o ∈ operations run.networkInstance last script) :
    Ledger.Welcome run.networkInstance (run.responder.context session) o := by
  obtain ⟨helection, hbuilt⟩ := mem_numbered ho
  obtain ⟨s, -, hs⟩ := List.mem_map.1 hbuilt
  refine ⟨(congrArg (fun b => b.2.1) hs).symm, ?_⟩
  rw [Responder.context_alone h.alone rfl, h.primary, Context.checkElection, Context.effectiveId, helection]
  exact if_neg (Nat.lt_irrefl _)

/-- The device answers a batch by one message. -/
theorem Serving.handle (h : run.Serving c persistence session last page results)
    {script : List (OperationType × Entry)} (nonempty : script ≠ [])
    (ascending : (last :: (List.range script.length).map (last + 1 + UInt64.ofNat ·)).IsChain (· < ·)) :
    ∃ r : Responder, run.responder.handle session { operations := operations run.networkInstance last script } =
        ([{ results := (outcome c session run.networkInstance last page script).1 }], r) ∧
      r.config = run.responder.config ∧ r.primary = some ⟨0, 1⟩ ∧
      r.sessions = .ofList [(session, served c persistence (last + UInt64.ofNat script.length))] ∧
      r.rib.Holds Testbed.capacity run.networkInstance
        (outcome c session run.networkInstance last page script).2 ∧
      r.rib.plane.interfaces = run.responder.rib.plane.interfaces := by
  have hids := ids_operations run.networkInstance last script
  have hcontext := Responder.context_alone h.alone rfl
  have hsuccess : (run.responder.context session).success = installed c := by
    rw [hcontext, Context.success, installed]
    dsimp only [connection]
    cases c.deviations.ribAckOnly <;> rfl
  have hlast : (run.responder.context session).lastOperationId = last := congrArg Context.lastOperationId hcontext
  have hclient : (run.responder.context session).client = session := by rw [hcontext]
  have hpage : run.responder.rib.Holds Testbed.capacity run.networkInstance page := h.holds
  have hbatch := hpage.batch (fun _ ho => h.welcome ho) (by rw [hlast, hids]; exact ascending)
  rw [hclient, hsuccess, hlast, hids, last_ids] at hbatch
  obtain ⟨hacks, hused, hholds, hinterfaces⟩ := hbatch
  have hnonempty : operations run.networkInstance last script ≠ [] := by
    intro hnil
    rw [hnil] at hids
    simp [nonempty] at hids
  have hhandle := Responder.handle_batch h.alone rfl rfl hnonempty
  rw [Responder.program_alone h.alone, hacks, hused] at hhandle
  exact ⟨_, hhandle, rfl, h.primary, rfl, hholds, hinterfaces⟩

theorem Serving.ends_modify (h : run.Serving c persistence session last page results) (patient : c.awaitMs ≠ 0)
    {batch : List (OperationType × EntryDraft)} (script : List (OperationType × Entry))
    (reads : Client.buildAll batch = .ok (script.map fun s => (s.1, run.networkInstance, s.2)))
    (nonempty : script ≠ [])
    (ascending : (last :: (List.range script.length).map (last + 1 + UInt64.ofNat ·)).IsChain (· < ·)) :
    Ends (modifyEntries batch) run fun _ sent => Ends (await c) sent fun _ after =>
      after.Serving c persistence session (last + UInt64.ofNat script.length)
        (outcome c session run.networkInstance last page script).2
        (results ++ (outcome c session run.networkInstance last page script).1.map .ofAcknowledgment) ∧
      after.flows = run.flows := by
  obtain ⟨r, hhandle, hconfig, hprimary, hsessions, hholds, hinterfaces⟩ := h.handle nonempty ascending
  let acks := (outcome c session run.networkInstance last page script).1
  have hids : acks.map (·.id) = (operations run.networkInstance last script).map (·.id) := Ledger.ids_turnAll ..
  have hnumbers := hids.trans (ids_operations ..)
  have hacks : acks ≠ [] := by
    intro hnil
    rw [hnil] at hnumbers
    simp [nonempty] at hnumbers
  -- The wait ends with the one message, as every id in it is new.
  have hdistinct : (acks.map (·.id)).Nodup := by
    rw [hnumbers]
    exact (List.isChain_iff_pairwise.1 ascending).of_cons.imp UInt64.ne_of_lt
  have hmodify : run.client.modify run.responder batch = (.ok (acks.map (·.id)),
      asking c persistence session (last + UInt64.ofNat script.length) results acks, r) := by
    rw [h.client]
    exact modify_talking (Responder.isOpen_alone h.alone) reads hhandle hids
  have hwait : (asking c persistence session (last + UInt64.ofNat script.length) results acks).await r c.awaitMs = _ :=
    await_asking hacks hdistinct r c.awaitMs
  refine (ends_call hmodify).bind fun ids sent hsent => .pure ?_
  rw [hsent.2]
  refine (ends_await patient _ hwait).mono fun _ after hafter => ?_
  rw [hafter]
  have hready := h.toReady.withResponder hconfig hinterfaces hholds
  have hsupports := (congrArg ResponderConfig.fibAckSupported hconfig).trans h.supports
  exact ⟨⟨hready, h.rate, hsupports, hsessions, hprimary, rfl, h.spotless⟩, rfl⟩

/-! ### The end -/

theorem Serving.ends_flushAll (h : run.Serving c persistence session last page results) :
    Ends flushAll run fun _ after =>
      after.Serving c persistence session last ∅ results ∧ after.flows = run.flows := by
  obtain ⟨hempty, hinterfaces⟩ := h.holds.flushAll
  let response : FlushResponse := { outcome :=
    if (run.responder.rib.flushAll run.responder.rib.networkInstances).1.remaining = 0 then .ok
    else .nonZeroReferenceRemain }
  let vacated := { run.responder with rib := (run.responder.rib.flushAll run.responder.rib.networkInstances).2 }
  have hflush : run.client.flush run.responder (some .all) true = (.ok response, vacated) := by
    rw [h.client]
    rfl
  have hcall := congrArg (fun out => (out.1, run.client, out.2)) hflush
  refine .tryCatch (Ends.mono (Ends.discard (ends_call hcall)) fun _ after hafter => ?_)
  obtain ⟨_, -, rfl⟩ := hafter
  exact ⟨⟨h.withResponder rfl hinterfaces hempty, h.rate, h.supports, h.alone, h.primary, h.client, h.spotless⟩, rfl⟩

/-- A session that ends leaves the testbed idle: what it had programmed goes with it, or was flushed before. -/
theorem Serving.idle_of_stop (h : run.Serving c persistence session last page results)
    (owned : ∀ k x, page.get? k = some x → x.owner = session) (flushed : persistence = .preserve → page = ∅) :
    (run.client.stop run.responder).1.results = results ∧
      (run.setResponder (run.client.stop run.responder).2).testbed.Idle c := by
  have hstop : (run.client.stop run.responder).2 =
      { run.responder with sessions := ∅, rib := run.responder.remains session persistence } := by
    rw [h.client]
    exact Responder.disconnect_alone h.alone rfl
  have hremains : (run.responder.remains session persistence).Holds Testbed.capacity run.networkInstance ∅ ∧
      (run.responder.remains session persistence).plane.interfaces = run.responder.rib.plane.interfaces := by
    cases persistence with
    | preserve =>
      rw [← flushed rfl]
      exact ⟨h.holds, rfl⟩
    | delete => exact h.holds.removeOwnedBy owned
  refine ⟨by rw [h.client]; rfl, ?_⟩
  rw [hstop]
  refine ⟨h.withResponder rfl hremains.2 hremains.1, h.rate, h.supports, rfl, fun id hid => ?_⟩
  exact (Option.some.inj (h.primary.symm.trans hid)).symm

end CaseRun

end RouteProgramming
