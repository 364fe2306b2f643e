import RouteProgramming.Case
import RouteProgramming.Case.Report
import RouteProgramming.SuiteError
import RouteProgramming.Text.Shortest

/-!
Running a case. Every run has a client of its own, which wins the election with id 1. A check that
fails is noted and the case goes on; an error ends it. Under `preserve` the tables are flushed after
the case, and the client leaves before the report is written, so `delete` has cleaned up by then.
-/

namespace RouteProgramming

structure CaseRun where
  testbed : Testbed
  client : Client
  failures : List FailedCheck := []
  flows : List FlowCounters := []
  elapsedMs : Nat := 0

/-- A part of a case, which may end the case early. -/
abbrev CaseStep := ExceptT SuiteError (StateM CaseRun)

/-! ### What the cases program -/

namespace Case

def nextHopIndex : UInt64 := 42

def nextHopWeight : UInt64 := 1

def groupId : UInt64 := 10

def nextHop (networkInstance : String) : EntryDraft :=
  ⟨some networkInstance, .nextHop (some nextHopIndex) (some Testbed.destinationEnd.ipv4) none⟩

def nextHopGroup (networkInstance : String) : EntryDraft :=
  ⟨some networkInstance, .nextHopGroup (some groupId) (.ofList [(nextHopIndex, nextHopWeight)])⟩

def route (networkInstance : String) : EntryDraft :=
  ⟨some networkInstance, .ipv4 (some Testbed.destinationPrefix.text) (some groupId)⟩

/-- Name of the flow that the cases send. -/
def flowName : String := "Flow"

end Case

/-! ### Checks -/

/-- How a check can fail. -/
inductive Finding where
  | result (error : NoMatch)
  | await (error : SuiteError)
  | weights (got : List UInt64)
  | noRoute
  | loss (counters : FlowCounters)
  | flush (error : ClientError)

namespace Finding

def check : Finding → String
  | .result _ => "result"
  | .await _ => "await"
  | .weights _ | .noRoute => "telemetry"
  | .loss _ => "traffic"
  | .flush _ => "flush"

def wordList (words : List UInt64) : String :=
  "[" ++ ", ".intercalate (words.map (fun w => Text.Decimal.text w.toNat)) ++ "]"

def message : Finding → String
  | .result error => error.message
  | .await error => s!"Await got error for ModifyRequest: {error.message}"
  | .weights got =>
    let want := [Case.nextHopWeight]
    s!"next-hop-group/next-hop/state/weight got {wordList got}, want {wordList want}"
  | .noRoute => s!"ipv4-entry/state/prefix got none, want {Testbed.destinationPrefix}"
  | .loss counters =>
    let loss := Text.Shortest.ofRat counters.loss
    s!"LossPct for flow {counters.name} got {loss.text}, want 0"
  | .flush error => s!"Cannot flush: {error.message}"

end Finding

namespace CaseRun

def responder (run : CaseRun) : Responder := run.testbed.device.responder

def setResponder (run : CaseRun) (r : Responder) : CaseRun :=
  { run with testbed.device.responder := r }

def networkInstance (run : CaseRun) : String := run.testbed.networkInstance

/-- Notes a check that failed. -/
def note (finding : Finding) : CaseStep Unit :=
  modify fun run => { run with failures := run.failures ++ [⟨finding.check, finding.message⟩] }

/-- A call of the client. -/
def call {α : Type} (f : Client → Responder → Except ClientError α × Client × Responder) : CaseStep α :=
  ExceptT.mk fun run =>
    let (result, client, responder) := f run.client run.responder
    (result.mapError .client, { run.setResponder responder with client })

def pass (run : CaseRun) (milliseconds : Nat) : CaseRun :=
  { run with testbed := run.testbed.pass milliseconds, elapsedMs := run.elapsedMs + milliseconds }

/-- Waits until the client is owed nothing. The device answers while the client waits, so a wait of no
time ends before the first answer. -/
def await (c : SuiteConfig) : CaseStep Unit :=
  ExceptT.mk fun run =>
    let owed := run.client.pending.count
    if c.awaitMs = 0 ∧ 0 < owed then (.error (.client (.timeout 0 owed)), run)
    else
      let (result, client) := run.client.await run.responder c.awaitMs
      match result with
      | .ok () => (.ok (), { run with client })
      | .error e => (.error (.client e), { run with client }.pass e.delayMs)

/-- A call of the traffic generator. -/
def tester (f : Tester → Device → Except TrafficFault Unit × Tester) : CaseStep Unit :=
  ExceptT.mk fun run =>
    let (result, tester) := f run.testbed.tester run.testbed.device
    (result.mapError .traffic, { run with testbed.tester := tester })

def sleep (milliseconds : Nat) : CaseStep Unit := modify (·.pass milliseconds)

def modifyEntries (batch : List (OperationType × EntryDraft)) : CaseStep Unit := do
  let _ ← call (·.modify · batch)

/-- Expects a result among those that the client has received. -/
def expect (want : Received) : CaseStep Unit := do
  match Received.expect (← get).client.results want with
  | .ok () => return
  | .error error => note (.result error)

/-- The acknowledgment that stands for an installed entry. -/
def installed (c : SuiteConfig) : Outcome :=
  if c.deviations.ribAckOnly then .installedInRib else .installedInFib

def expectOutcome (outcome : Outcome) (id : UInt64) (op : OperationType) (key : EntryKey) : CaseStep Unit :=
  expect { operationId := some id, op := some op, key := some key, outcome := some outcome }

def telemetry (run : CaseRun) : Telemetry := run.responder.telemetry run.networkInstance

/-- Expects the group with its one member in the telemetry. -/
def checkWeights : CaseStep Unit := do
  let group := (← get).telemetry.group? Case.groupId
  let got := (group.elim [] Telemetry.GroupItem.weights).mergeSort (· ≤ ·)
  if got ≠ [Case.nextHopWeight] then note (.weights got)

/-- Expects the route in the telemetry. -/
def checkRoute : CaseStep Unit := do
  if ((← get).telemetry.ipv4? Testbed.destinationPrefix).isNone then note .noRoute

/-- Sends traffic to the destination network, as many frames as `clock` says, and expects all of it to arrive. -/
def checkTraffic (c : SuiteConfig) (clock : Tester.Clock) : CaseStep Unit := do
  let change (f : Tester → Except TrafficFault Tester) : CaseStep Unit :=
    tester fun t _ =>
      match f t with
      | .ok t => (.ok (), t)
      | .error e => (.error e, t)
  change (·.addFlow Case.flowName Testbed.sourceEnd.name Testbed.destinationNetwork)
  change Tester.start
  sleep c.trafficMs
  tester (·.stop · clock)
  match (← get).testbed.tester.counters.get? Case.flowName with
  | none => throw (.traffic (.noCounters Case.flowName))
  | some counters =>
    if counters.isLossy then note (.loss counters)
    modify fun run => { run with flows := run.flows ++ [counters] }

/-! ### The cases -/

/-- Programs the next-hop and the group, which are operations 1 and 2. -/
def programGroup (c : SuiteConfig) : CaseStep Unit := do
  let name := (← get).networkInstance
  modifyEntries [(.add, Case.nextHop name), (.add, Case.nextHopGroup name)]
  tryCatch (await c) (fun error => note (.await error))
  expectOutcome (installed c) 1 .add (.nextHop Case.nextHopIndex)
  expectOutcome (installed c) 2 .add (.nextHopGroup Case.groupId)
  checkWeights

def programRouteFirst (c : SuiteConfig) : CaseStep Unit := do
  let name := (← get).networkInstance
  modifyEntries [(.add, Case.nextHop name), (.add, Case.route name), (.add, Case.nextHopGroup name)]
  await c
  expectOutcome .failed 2 .add (.ipv4 Testbed.destinationPrefix)
  expectOutcome (installed c) 1 .add (.nextHop Case.nextHopIndex)
  expectOutcome (installed c) 3 .add (.nextHopGroup Case.groupId)

def programRouteLast (c : SuiteConfig) (clock : Tester.Clock) : CaseStep Unit := do
  let name := (← get).networkInstance
  modifyEntries [(.add, Case.nextHop name), (.add, Case.nextHopGroup name), (.add, Case.route name)]
  await c
  expectOutcome (installed c) 1 .add (.nextHop Case.nextHopIndex)
  expectOutcome (installed c) 2 .add (.nextHopGroup Case.groupId)
  expectOutcome (installed c) 3 .add (.ipv4 Testbed.destinationPrefix)
  checkWeights
  checkRoute
  checkTraffic c clock

def programRouteTwice (c : SuiteConfig) (clock : Tester.Clock) : CaseStep Unit := do
  programGroup c
  let name := (← get).networkInstance
  modifyEntries [(.add, Case.route name), (.delete, Case.route name), (.add, Case.route name)]
  await c
  expectOutcome (installed c) 3 .add (.ipv4 Testbed.destinationPrefix)
  expectOutcome (installed c) 4 .delete (.ipv4 Testbed.destinationPrefix)
  expectOutcome (installed c) 5 .add (.ipv4 Testbed.destinationPrefix)
  checkRoute
  checkTraffic c clock

def perform (c : SuiteConfig) (clock : Tester.Clock) : Case → CaseStep Unit
  | .group => programGroup c
  | .routeBeforeGroup => programRouteFirst c
  | .groupBeforeRoute => programRouteLast c clock
  | .addDeleteAdd => programRouteTwice c clock

/-! ### A whole run -/

/-- Opens the session and waits for the answers to its parameters and election id. -/
def negotiate (c : SuiteConfig) : CaseStep Unit := do
  call Client.start
  call Client.startSending
  await c

/-- Flushes every network instance, whoever is primary. -/
def flushAll : CaseStep Unit := do
  let flush : CaseStep FlushResponse :=
    call fun client responder =>
      let (result, responder) := client.flush responder (some .all) true
      (result, client, responder)
  tryCatch (discard flush) fun
    | .client error => note (.flush error)
    | error => throw error

/-- A session under `persistence`, and how it ended early if it did. -/
def session (c : SuiteConfig) (clock : Tester.Clock) (persistence : Persistence) (case : Case) (run : CaseRun) :
    Option String × CaseRun :=
  match (negotiate c).run run with
  | (.error e, run) => (some s!"Await got error during session negotiation: {e.message}", run)
  | (.ok (), run) =>
    let (result, run) := (perform c clock case).run run
    let fatal := match result with
      | .ok () => none
      | .error e => some e.message
    match persistence with
    | .delete => (fatal, run)
    | .preserve => (fatal, (flushAll.run run).2)

/-- What the client asks for: acknowledgments from the hardware where the device can give them. -/
def connection (c : SuiteConfig) (persistence : Persistence) : Connection where
  stub := some .device
  params := {
    redundancy := .singleElectedPrimary
    persistence
    ackType := if c.deviations.ribAckOnly then .rib else .ribAndFib }
  initialElectionId := some ⟨0, 1⟩

end CaseRun

namespace Testbed

/-- Runs one case with a new client. -/
def runCase (t : Testbed) (c : SuiteConfig) (persistence : Persistence) (case : Case)
    (clock : Tester.Clock := Tester.frames) : CaseReport × Testbed :=
  let start : CaseRun := { testbed := t, client := { connection := CaseRun.connection c persistence } }
  let (fatal, run) := CaseRun.session c clock persistence case start
  let (client, responder) := run.client.stop run.responder
  let report : CaseReport := {
    name := case.name
    description := case.description
    persistence
    failures := run.failures
    results := client.results
    flows := run.flows }
  (report.finish fatal run.elapsedMs, (run.setResponder responder).testbed)

end Testbed

end RouteProgramming
