import RouteProgramming.Message
import RouteProgramming.Rib
import RouteProgramming.Telemetry

/-!
The device's side of the protocol. Every session starts with parameters, on which all sessions must
agree; the highest election id ever accepted is the primary one; and a session that asked for it
takes its entries along when it ends. A request is served in stages, and the first stage that fails
ends the session.
-/

namespace RouteProgramming

structure ResponderConfig where
  fibAckSupported : Bool := true
  defaultNetworkInstance : String := "DEFAULT"
  /-- Network instances besides the default one. -/
  networkInstances : List String := []
  /-- How many entries of one kind a network instance can hold. -/
  capacity : Nat := 16384
  /-- How many requests a session may have waiting. -/
  channelDepth : Nat := 64
deriving DecidableEq, Repr, Inhabited

namespace ResponderConfig

/-- The default network instance and the others, in order. -/
def allNetworkInstances (c : ResponderConfig) : List String :=
  (KeySet.ofList (c.defaultNetworkInstance :: c.networkInstances)).keys

end ResponderConfig

/-- Why the device turns down a request or call. -/
inductive Refusal where
  | protocol (fault : ProtocolFault)
  | fibAckUnsupported
  | disagreement (asked others : Parameters)
  | lateParameters
  | electionNotUsed
  | unknownNetworkInstance (name : String)
  | flushWithZeroId
  | flushWithLowId (id primary : ElectionId)
  | flushWithoutId
  | sessionClosed
deriving DecidableEq, Repr

namespace Refusal

def message : Refusal → String
  | .protocol fault => s!"Protocol error: {fault.message}"
  | .fibAckUnsupported => "Unsupported session parameters: RIB_AND_FIB acknowledgment is not supported"
  | .disagreement asked others =>
    s!"Unsupported session parameters: parameters {asked} differ from those of connected clients {others}"
  | .lateParameters => "Session parameters must be sent in the first request"
  | .electionNotUsed => "Election rejected: election id requires SINGLE_ELECTED_PRIMARY redundancy"
  | .unknownNetworkInstance name => s!"Unknown network instance: {name}"
  | .flushWithZeroId => "Flush rejected: election id must be greater than zero"
  | .flushWithLowId id primary => s!"Flush rejected: election id {id} is lower than primary {primary}"
  | .flushWithoutId => "Flush rejected: an election id or election override is required"
  | .sessionClosed => "Session closed"

end Refusal

structure Session where
  /-- Settled by the first request. -/
  params : Option Parameters := none
  /-- The election id presented last. -/
  electionId : Option ElectionId := none
  lastOperationId : UInt64 := 0
  /-- Whether the client still takes responses. -/
  listening : Bool := true
deriving DecidableEq, Repr, Inhabited

structure Responder where
  config : ResponderConfig
  rib : Rib
  /-- The open sessions. -/
  sessions : Table ClientId Session := ∅
  /-- The highest election id accepted so far. -/
  primary : Option ElectionId := none
  nextClient : ClientId := 1
deriving DecidableEq, Repr

namespace Responder

def create (config : ResponderConfig) (plane : ForwardingPlane := {}) : Responder where
  config
  rib := Rib.create config.allNetworkInstances config.capacity plane

def isOpen (r : Responder) (client : ClientId) : Bool := r.sessions.contains client

/-- The parameters of the sessions that have settled them, in the order in which the sessions were opened. -/
def settled (r : Responder) : List (ClientId × Parameters) :=
  r.sessions.rows.filterMap (fun s => s.2.params.map (s.1, ·))

/-- Number of sessions that have settled their parameters. -/
def sessionCount (r : Responder) : Nat := r.settled.length

def updateSession (r : Responder) (client : ClientId) (f : Session → Session) : Responder :=
  { r with sessions := r.sessions.modify client f }

def mapPlane (r : Responder) (f : ForwardingPlane → ForwardingPlane) : Responder :=
  { r with rib := { r.rib with plane := f r.rib.plane } }

/-! ### Opening and closing -/

def connect (r : Responder) : ClientId × Responder :=
  (r.nextClient, { r with sessions := r.sessions.insert r.nextClient {}, nextClient := r.nextClient + 1 })

/-- The client takes no more responses; it may still send. -/
def deafen (r : Responder) (client : ClientId) : Responder :=
  r.updateSession client ({ · with listening := false })

/-- Ends a session. Its entries go with it unless it asked for them to stay. -/
def disconnect (r : Responder) (client : ClientId) : Responder :=
  let closed := { r with sessions := r.sessions.erase client }
  match (r.sessions.get? client).bind (·.params) with
  | none => closed
  | some params =>
    match params.persistence with
    | .preserve => closed
    | .delete => { closed with rib := (closed.rib.removeOwnedBy client).2 }

/-! ### The stages of a request -/

/-- The parameters of another session that differ from the given ones. -/
def disagreeing? (r : Responder) (client : ClientId) (params : Parameters) : Option Parameters :=
  (r.settled.find? (fun s => s.1 != client && s.2 != params)).map (·.2)

/-- Settles the parameters of a session. They must be valid, supported, and those of every other session. -/
def negotiate (r : Responder) (client : ClientId) (params : Parameters) : Except Refusal Responder :=
  match params.check with
  | .error fault => .error (.protocol fault)
  | .ok () =>
    if params.ackType = .ribAndFib ∧ !r.config.fibAckSupported then .error .fibAckUnsupported
    else
      match r.disagreeing? client params with
      | some others => .error (.disagreement params others)
      | none => .ok (r.updateSession client ({ · with params := some params }))

/-- Takes an election id from a session and returns the primary one. -/
def present (r : Responder) (client : ClientId) (id : ElectionId) : Except Refusal (ElectionId × Responder) :=
  match id.check with
  | .error fault => .error (.protocol fault)
  | .ok () =>
    if ((r.sessions.get? client).bind (·.params)).map (·.redundancy) = some .singleElectedPrimary then
      let primary := r.primary.elim id (max id)
      .ok (primary, { r.updateSession client ({ · with electionId := some id }) with primary := some primary })
    else .error .electionNotUsed

/-- What a session's operations are checked against. -/
def context (r : Responder) (client : ClientId) : Context :=
  let s := (r.sessions.get? client).getD {}
  let params := s.params.getD {}
  { client, redundancy := params.redundancy, ackType := params.ackType, clientElectionId := s.electionId,
    primaryElectionId := r.primary, lastOperationId := s.lastOperationId }

def program (r : Responder) (client : ClientId) (operations : List Operation) : List Acknowledgment × Responder :=
  let (acks, context, rib) := r.rib.applyBatch (r.context client) operations
  (acks, { r with rib }.updateSession client ({ · with lastOperationId := context.lastOperationId }))

/-- How far a request has come: the state, the responses so far, and what ended it early. -/
structure Progress where
  state : Responder
  responses : List ModifyResponse := []
  refusal : Option Refusal := none

namespace Progress

/-- Goes on with the next stage unless an earlier one failed. -/
def andThen (p : Progress) (stage : Responder → Progress) : Progress :=
  match p.refusal with
  | some _ => p
  | none =>
    let q := stage p.state
    { q with responses := p.responses ++ q.responses }

end Progress

/-- Whether a session's client takes responses. -/
def hears (r : Responder) (client : ClientId) : Bool := ((r.sessions.get? client).map (·.listening)).getD false

/-- Sends a response, which fails when nobody takes it. -/
def respond (r : Responder) (client : ClientId) (response : ModifyResponse) : Progress :=
  if r.hears client then { state := r, responses := [response] }
  else { state := r, refusal := some .sessionClosed }

/-- First stage: parameters belong into the first request, which goes by the default ones without. -/
def settle (r : Responder) (client : ClientId) (params : Option Parameters) : Progress :=
  let fresh := ((r.sessions.get? client).bind (·.params)).isNone
  match params, fresh with
  | some _, false => { state := r, refusal := some .lateParameters }
  | some params, true =>
    match r.negotiate client params with
    | .ok r => r.respond client { paramsResult := some .ok }
    | .error e =>
      (r.respond client { paramsResult := some (.error e.message) }).andThen
        (fun r => { state := r, refusal := some e })
  | none, true =>
    match r.negotiate client {} with
    | .ok r => { state := r }
    | .error e => { state := r, refusal := some e }
  | none, false => { state := r }

/-- Second stage: a new election id, answered by the primary one. -/
def elect (r : Responder) (client : ClientId) : Option ElectionId → Progress
  | none => { state := r }
  | some id =>
    match r.present client id with
    | .ok (primary, r) => r.respond client { electionId := some primary }
    | .error e => { state := r, refusal := some e }

/-- Third stage: a batch of operations, answered by one message with all acknowledgments. -/
def runBatch (r : Responder) (client : ClientId) : List Operation → Progress
  | [] => { state := r }
  | operations =>
    let (results, r) := r.program client operations
    r.respond client { results }

def serve (r : Responder) (client : ClientId) (request : ModifyRequest) : Progress :=
  ((r.settle client request.params).andThen (·.elect client request.electionId)).andThen
    (·.runBatch client request.operations)

/-- Handles a request of an open session. A failure is the last message of the session. -/
def handle (r : Responder) (client : ClientId) (request : ModifyRequest) : List ModifyResponse × Responder :=
  let p := r.serve client request
  match p.refusal with
  | none => (p.responses, p.state)
  | some e =>
    let farewell := if p.state.hears client then [{ error := some e.message }] else []
    (p.responses ++ farewell, p.state.disconnect client)

/-! ### Calls outside a session -/

/-- A flush must not be older than the election, unless it overrides it. -/
def checkFlush (r : Responder) (request : FlushRequest) : Except Refusal Unit :=
  if request.electionOverride then .ok ()
  else
    match request.electionId, r.primary with
    | none, _ =>
      if r.settled.any (·.2.redundancy == .singleElectedPrimary) then .error .flushWithoutId else .ok ()
    | some id, none => if id.isZero then .error .flushWithZeroId else .ok ()
    | some id, some primary =>
      if id.isZero then .error .flushWithZeroId
      else if id < primary then .error (.flushWithLowId id primary)
      else .ok ()

/-- The network instances that a flush is for. -/
def flushTargets (r : Responder) : FlushTarget → Except Refusal (List String)
  | .all => .ok r.rib.networkInstances
  | .networkInstance name =>
    if r.rib.has name then .ok [name] else .error (.unknownNetworkInstance name)

def flush (r : Responder) (request : FlushRequest) : Except Refusal (FlushResponse × Responder) := do
  r.checkFlush request
  let targets ← r.flushTargets request.target
  let (removal, rib) := r.rib.flushAll targets
  return ({ outcome := if removal.remaining = 0 then .ok else .nonZeroReferenceRemain }, { r with rib })

def get (r : Responder) (networkInstance : String) : Except Refusal (List InstalledEntry) :=
  if r.rib.has networkInstance then .ok (r.rib.entries networkInstance)
  else .error (.unknownNetworkInstance networkInstance)

/-- Nothing is installed in an unknown network instance. -/
def telemetry (r : Responder) (networkInstance : String) : Telemetry :=
  ((r.rib.instances.get? networkInstance).getD {}).telemetry networkInstance

end Responder

end RouteProgramming
