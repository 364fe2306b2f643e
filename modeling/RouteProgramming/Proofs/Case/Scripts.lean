import RouteProgramming.Proofs.Case.Serving

/-! The cases from start to end. What a case programs is fixed, so what its
operations are answered and what they leave on an empty page is fixed as well.
The page tells what the telemetry shows, and that the route carries the
network; hence every check of a case passes. -/

namespace RouteProgramming

/-! ### What the cases program -/

namespace Case

def nextHopEntry : Entry :=
  .nextHop { index := nextHopIndex, address := some (.v4 Testbed.testerDestination.address) }

def members : Table UInt64 UInt64 := .ofList [(nextHopIndex, nextHopWeight)]

def groupEntry : Entry := .nextHopGroup ⟨groupId, members⟩

def routeEntry : Entry := .ipv4 ⟨Testbed.destinationPrefix, groupId⟩

theorem build_nextHop (ni : String) : (nextHop ni).build = .ok (ni, nextHopEntry) := rfl

theorem build_nextHopGroup (ni : String) : (nextHopGroup ni).build = .ok (ni, groupEntry) := rfl

theorem build_route (ni : String) : (route ni).build = .ok (ni, routeEntry) := by
  rw [route, EntryDraft.build, DraftFields.entry, Cidr.parse_text]
  rfl

theorem buildAll_nil : Client.buildAll [] = .ok [] := rfl

theorem buildAll_cons {ni : String} {draft : EntryDraft} {e : Entry} (op : OperationType)
    (h : draft.build = .ok (ni, e)) {batch : List (OperationType × EntryDraft)}
    {built : List (OperationType × String × Entry)} (hbatch : Client.buildAll batch = .ok built) :
    Client.buildAll ((op, draft) :: batch) = .ok ((op, ni, e) :: built) := by
  rw [Client.buildAll, h, hbatch]

/-- The acknowledgment of an operation that is carried out. -/
def accepted (outcome : Outcome) (id : UInt64) (op : OperationType) (e : Entry) : Acknowledgment :=
  { id, op, key := e.key, outcome }

/-- The acknowledgment of a route whose group is not there. -/
def early (id : UInt64) : Acknowledgment :=
  { id, op := .add, key := routeEntry.key, outcome := .failed,
    error := some (Failure.forwardReference routeEntry.key groupEntry.key).message }

/-- What the operations of a case are answered by a device that acknowledges installed entries so. -/
def answers (installed : Outcome) : Case → List Acknowledgment
  | .group => [accepted installed 1 .add nextHopEntry, accepted installed 2 .add groupEntry]
  | .routeBeforeGroup => [accepted installed 1 .add nextHopEntry, early 2, accepted installed 3 .add groupEntry]
  | .groupBeforeRoute => [accepted installed 1 .add nextHopEntry, accepted installed 2 .add groupEntry,
    accepted installed 3 .add routeEntry]
  | .addDeleteAdd => [accepted installed 1 .add nextHopEntry, accepted installed 2 .add groupEntry,
    accepted installed 3 .add routeEntry, accepted installed 4 .delete routeEntry,
    accepted installed 5 .add routeEntry]

/-- Whether a case sends traffic. -/
def sends : Case → Bool
  | .group | .routeBeforeGroup => false
  | .groupBeforeRoute | .addDeleteAdd => true

/-- What the tester counts in a case if nothing is lost of so many frames. -/
def counted (n : Nat) (case : Case) : List FlowCounters := if case.sends then [⟨flowName, n, n⟩] else []

/-- What is installed when a case ends: the route only if the case sends traffic along it. -/
def contents (case : Case) : List Entry :=
  if case.sends then [nextHopEntry, groupEntry, routeEntry] else [nextHopEntry, groupEntry]

/-- Entries of one client. -/
def page (client : ClientId) (outcome : Outcome) (entries : List Entry) : Table EntryKey Record :=
  .ofList (entries.map fun e => (e.key, ⟨e, client, outcome⟩))

theorem mem_of_page {client : ClientId} {outcome : Outcome} {entries : List Entry} {k : EntryKey} {x : Record}
    (h : (page client outcome entries).get? k = some x) : ∃ e ∈ entries, k = e.key ∧ x = ⟨e, client, outcome⟩ := by
  obtain ⟨e, he, hrow⟩ := List.mem_map.1 (Table.mem_of_get?_ofList h)
  cases hrow
  exact ⟨e, he, rfl, rfl⟩

end Case

/-! ### What a page shows -/

namespace Testbed.Ready

variable {t : Testbed} {page : Table EntryKey Record} {x : Record}

theorem group?_telemetry (h : t.Ready page) {id : UInt64} {g : NextHopGroup}
    (hx : page.get? (.nextHopGroup id) = some x) (he : x.entry = .nextHopGroup g) :
    ((t.device.responder.telemetry t.networkInstance).group? id).map (·.weights) = some g.members.values := by
  obtain ⟨a, known, sound, table⟩ := h.holds.table
  have hrow := table (.nextHopGroup id)
  rw [hx, Option.map_some, he] at hrow
  obtain ⟨row, hget, hentry⟩ := Option.map_eq_some_iff.1 hrow
  rw [Responder.telemetry, known, Option.getD_some]
  exact sound.group?_telemetry hget hentry

theorem ipv4?_telemetry (h : t.Ready page) {p : Cidr} (hx : page.get? (.ipv4 p) = some x) :
    ((t.device.responder.telemetry t.networkInstance).ipv4? p).isSome := by
  obtain ⟨a, known, sound, table⟩ := h.holds.table
  have hrow := table (.ipv4 p)
  rw [hx] at hrow
  obtain ⟨row, hget, -⟩ := Option.map_eq_some_iff.1 hrow
  rw [Responder.telemetry, known, Option.getD_some]
  exact sound.ipv4?_telemetry (Aft.contains_iff.2 ⟨row, hget⟩)

/-- With the next-hop, its group and the route installed, nothing of the suite's flow is lost. -/
theorem runFlow {client : ClientId} {outcome : Outcome}
    (h : t.Ready (Case.page client outcome [Case.nextHopEntry, Case.groupEntry, Case.routeEntry])) (n : Nat) :
    t.tester.runFlow t.device Case.flowName Case.flow n = .ok ⟨Case.flowName, n, n⟩ := by
  let installed := t.device.responder.rib.installed? t.networkInstance
  have hentry {k : EntryKey} {e : Entry} (hk : installed k = some e) :
      k = e.key ∧ e ∈ [Case.nextHopEntry, Case.groupEntry, Case.routeEntry] := by
    obtain ⟨x, hx, rfl⟩ := Option.map_eq_some_iff.1 ((h.holds.installed? k).symm.trans hk)
    obtain ⟨e, he, rfl, rfl⟩ := Case.mem_of_page hx
    exact ⟨rfl, he⟩
  have hcarries : t.tester.Carries t.device installed testerNetwork destinationPrefix Case.groupId := by
    refine h.wired.carries (fun route id => ⟨fun hroute => ?_, ?_⟩) fun g _ index _ e he => ?_
    · simpa [Case.nextHopEntry, Case.groupEntry, Case.routeEntry] using (hentry hroute).2
    · rintro ⟨rfl, rfl⟩
      exact h.holds.installed? _
    · have hnextHop : e = { index := Case.nextHopIndex, address := some (.v4 testerDestination.address) } := by
        simpa [Case.nextHopEntry, Case.groupEntry, Case.routeEntry] using (hentry he).2
      rw [hnextHop]
      exact h.wired.leadsTo_address rfl rfl
  obtain ⟨ingress, henters⟩ := h.wired.ingress
  have hsource : t.tester.topology.interfaces.get? Case.flow.source = some testerSource := by
    rw [h.wired.topology]
    rfl
  have hnetwork : t.tester.topology.networks.get? Case.flow.destination = some testerNetwork := by
    rw [h.wired.topology]
    rfl
  exact Tester.runFlow_installed h.holds.mirrored hcarries hsource hnetwork rfl henters Case.flowName n

end Testbed.Ready

/-! ### How far a case has come -/

namespace CaseRun

open CaseStep Case

variable {c : SuiteConfig} {persistence : Persistence} {session : ClientId} {last : UInt64} {entries : List Entry}
  {acks : List Acknowledgment} {flows : List FlowCounters} {run : CaseRun}

/-- A case that has used so many ids, has the entries installed, and has received the acknowledgments and counted the
flows. -/
structure Reached (c : SuiteConfig) (persistence : Persistence) (session : ClientId) (last : UInt64)
    (entries : List Entry) (acks : List Acknowledgment) (flows : List FlowCounters) (run : CaseRun) : Prop
    extends run.Serving c persistence session last (page session (installed c) entries)
      (introductions ++ acks.map .ofAcknowledgment) where
  counted : run.flows = flows

namespace Reached

/-- A batch of the ids that come next. What it is answered and what it leaves installed can be computed. -/
theorem ends_modify (h : run.Reached c persistence session last entries acks flows) (patient : c.awaitMs ≠ 0)
    {batch : List (OperationType × EntryDraft)} (script : List (OperationType × Entry))
    (reads : Client.buildAll batch = .ok (script.map fun s => (s.1, run.networkInstance, s.2)))
    (nonempty : script ≠ [])
    (ascending : (last :: (List.range script.length).map (last + 1 + UInt64.ofNat ·)).IsChain (· < ·))
    (more : List Acknowledgment) (contents : List Entry)
    (turned : outcome c session run.networkInstance last (page session (installed c) entries) script =
      (more, page session (installed c) contents)) :
    Ends (modifyEntries batch) run fun _ sent => Ends (await c) sent fun _ after =>
      after.Reached c persistence session (last + UInt64.ofNat script.length) contents (acks ++ more) flows := by
  refine (h.toServing.ends_modify patient script reads nonempty ascending).mono fun _ _ hsent => ?_
  refine hsent.mono fun _ after hafter => ?_
  rw [turned, List.append_assoc, ← List.map_append] at hafter
  exact ⟨hafter.1, hafter.2.trans h.counted⟩

theorem ends_expectOutcome (h : run.Reached c persistence session last entries acks flows) {a : Acknowledgment}
    (ha : a ∈ acks) : Ends (expectOutcome a.outcome a.id a.op a.key) run fun _ after => after = run := by
  refine CaseRun.ends_expectOutcome ?_
  rw [h.client]
  exact List.mem_append_right _ (List.mem_map_of_mem ha)

theorem ends_checkWeights (h : run.Reached c persistence session last entries acks flows)
    (there : (page session (installed c) entries).get? groupEntry.key = some ⟨groupEntry, session, installed c⟩) :
    Ends checkWeights run fun _ after => after = run :=
  CaseRun.ends_checkWeights (h.group?_telemetry there rfl)

theorem ends_checkRoute (h : run.Reached c persistence session last entries acks flows)
    (there : (page session (installed c) entries).get? routeEntry.key = some ⟨routeEntry, session, installed c⟩) :
    Ends checkRoute run fun _ after => after = run :=
  CaseRun.ends_checkRoute (h.ipv4?_telemetry there)

theorem ends_checkTraffic {clock : Tester.Clock} {n : Nat}
    (h : run.Reached c persistence session last [nextHopEntry, groupEntry, routeEntry] acks flows)
    (counts : clock c.traffic.ratePps c.trafficMs = n) (sent : 0 < n) :
    Ends (checkTraffic c clock) run fun _ after => after.Reached c persistence session last
      [nextHopEntry, groupEntry, routeEntry] acks (flows ++ [⟨flowName, n, n⟩]) := by
  rw [← h.rate] at counts
  refine (CaseRun.ends_checkTraffic h.prepared counts sent (h.runFlow _)).mono fun _ after hafter => ?_
  rw [hafter, ← h.counted]
  have hwired := h.wired
  have hprepared := h.prepared
  have hready : Testbed.Ready { run.testbed with tester := run.testbed.tester.served n }
      (page session (installed c) [nextHopEntry, groupEntry, routeEntry]) :=
    ⟨⟨hwired.interfaces, hwired.settings, hwired.links, hwired.topology⟩, h.holds,
      ⟨hprepared.source, hprepared.network, rfl, rfl⟩⟩
  exact ⟨⟨hready, h.rate, h.supports, h.alone, h.primary, h.client, h.spotless⟩, rfl⟩

/-! ### The cases -/

theorem ends_programGroup (h : run.Reached c persistence session 0 [] [] flows) (patient : c.awaitMs ≠ 0) :
    Ends (programGroup c) run fun _ after => after.Reached c persistence session 2 [nextHopEntry, groupEntry]
      (Case.group.answers (installed c)) flows := by
  refine .get_bind ?_
  have hreads := buildAll_cons .add (build_nextHop run.networkInstance)
    (buildAll_cons .add (build_nextHopGroup run.networkInstance) buildAll_nil)
  refine (h.ends_modify patient [(.add, nextHopEntry), (.add, groupEntry)] hreads nofun (by decide)
    (Case.group.answers (installed c)) [nextHopEntry, groupEntry] rfl).bind fun _ sent hsent => ?_
  refine hsent.tryCatch.bind fun _ after hafter => ?_
  refine (hafter.ends_expectOutcome (.head _)).seq fun _ => ?_
  refine (hafter.ends_expectOutcome (.tail _ (.head _))).seq fun _ => ?_
  exact (hafter.ends_checkWeights rfl).stay fun _ => hafter

theorem ends_programRouteFirst (h : run.Reached c persistence session 0 [] [] flows) (patient : c.awaitMs ≠ 0) :
    Ends (programRouteFirst c) run fun _ after => after.Reached c persistence session 3 [nextHopEntry, groupEntry]
      (Case.routeBeforeGroup.answers (installed c)) flows := by
  refine .get_bind ?_
  have hreads := buildAll_cons .add (build_nextHop run.networkInstance)
    (buildAll_cons .add (build_route run.networkInstance)
      (buildAll_cons .add (build_nextHopGroup run.networkInstance) buildAll_nil))
  refine (h.ends_modify patient [(.add, nextHopEntry), (.add, routeEntry), (.add, groupEntry)] hreads nofun
    (by decide) (Case.routeBeforeGroup.answers (installed c)) [nextHopEntry, groupEntry] rfl).bind fun _ sent hsent => ?_
  refine hsent.bind fun _ after hafter => ?_
  refine (hafter.ends_expectOutcome (.tail _ (.head _))).seq fun _ => ?_
  refine (hafter.ends_expectOutcome (.head _)).seq fun _ => ?_
  exact (hafter.ends_expectOutcome (.tail _ (.tail _ (.head _)))).stay fun _ => hafter

variable {clock : Tester.Clock} {n : Nat}

theorem ends_programRouteLast (h : run.Reached c persistence session 0 [] [] flows) (patient : c.awaitMs ≠ 0)
    (counts : clock c.traffic.ratePps c.trafficMs = n) (sent : 0 < n) :
    Ends (programRouteLast c clock) run fun _ after => after.Reached c persistence session 3
      [nextHopEntry, groupEntry, routeEntry] (Case.groupBeforeRoute.answers (installed c))
      (flows ++ [⟨flowName, n, n⟩]) := by
  refine .get_bind ?_
  have hreads := buildAll_cons .add (build_nextHop run.networkInstance)
    (buildAll_cons .add (build_nextHopGroup run.networkInstance)
      (buildAll_cons .add (build_route run.networkInstance) buildAll_nil))
  refine (h.ends_modify patient [(.add, nextHopEntry), (.add, groupEntry), (.add, routeEntry)] hreads nofun
    (by decide) (Case.groupBeforeRoute.answers (installed c)) [nextHopEntry, groupEntry, routeEntry] rfl).bind
    fun _ _ hsent => ?_
  refine hsent.bind fun _ after hafter => ?_
  refine (hafter.ends_expectOutcome (.head _)).seq fun _ => ?_
  refine (hafter.ends_expectOutcome (.tail _ (.head _))).seq fun _ => ?_
  refine (hafter.ends_expectOutcome (.tail _ (.tail _ (.head _)))).seq fun _ => ?_
  refine (hafter.ends_checkWeights rfl).seq fun _ => ?_
  refine (hafter.ends_checkRoute rfl).seq fun _ => ?_
  exact hafter.ends_checkTraffic counts sent

theorem ends_programRouteTwice (h : run.Reached c persistence session 0 [] [] flows) (patient : c.awaitMs ≠ 0)
    (counts : clock c.traffic.ratePps c.trafficMs = n) (sent : 0 < n) :
    Ends (programRouteTwice c clock) run fun _ after => after.Reached c persistence session 5
      [nextHopEntry, groupEntry, routeEntry] (Case.addDeleteAdd.answers (installed c))
      (flows ++ [⟨flowName, n, n⟩]) := by
  refine (h.ends_programGroup patient).bind fun _ first hfirst => .get_bind ?_
  have hreads := buildAll_cons .add (build_route first.networkInstance)
    (buildAll_cons .delete (build_route first.networkInstance)
      (buildAll_cons .add (build_route first.networkInstance) buildAll_nil))
  refine (hfirst.ends_modify patient [(.add, routeEntry), (.delete, routeEntry), (.add, routeEntry)] hreads nofun
    (by decide) ((Case.addDeleteAdd.answers (installed c)).drop 2) [nextHopEntry, groupEntry, routeEntry] rfl).bind
    fun _ _ hsent => ?_
  refine hsent.bind fun _ after hafter => ?_
  refine (hafter.ends_expectOutcome (.tail _ (.tail _ (.head _)))).seq fun _ => ?_
  refine (hafter.ends_expectOutcome (.tail _ (.tail _ (.tail _ (.head _))))).seq fun _ => ?_
  refine (hafter.ends_expectOutcome (.tail _ (.tail _ (.tail _ (.tail _ (.head _)))))).seq fun _ => ?_
  refine (hafter.ends_checkRoute rfl).seq fun _ => ?_
  exact hafter.ends_checkTraffic counts sent

/-- Whatever the case, its operations are answered as they should be, and its checks pass. -/
theorem ends_perform (h : run.Reached c persistence session 0 [] [] flows) (patient : c.awaitMs ≠ 0)
    (counts : clock c.traffic.ratePps c.trafficMs = n) (sent : 0 < n) (case : Case) :
    Ends (perform c clock case) run fun _ after => ∃ last, after.Reached c persistence session last case.contents
      (case.answers (installed c)) (flows ++ case.counted n) := by
  have hnone : flows ++ [] = flows := List.append_nil _
  cases case with
  | group =>
    refine (h.ends_programGroup patient).mono fun _ _ hafter => ⟨2, ?_⟩
    rw [← hnone] at hafter
    exact hafter
  | routeBeforeGroup =>
    refine (h.ends_programRouteFirst patient).mono fun _ _ hafter => ⟨3, ?_⟩
    rw [← hnone] at hafter
    exact hafter
  | groupBeforeRoute => exact (h.ends_programRouteLast patient counts sent).mono fun _ _ hafter => ⟨3, hafter⟩
  | addDeleteAdd => exact (h.ends_programRouteTwice patient counts sent).mono fun _ _ hafter => ⟨5, hafter⟩

end Reached

end CaseRun

end RouteProgramming
