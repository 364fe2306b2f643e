import RouteProgramming.Client.EntryDraft
import RouteProgramming.Client.Received
import RouteProgramming.Responder
import RouteProgramming.Text.Span

/-!
The client's side of the protocol. A client notes what it is owed when it sends and collects what
arrives; `await` takes responses from the inbox until nothing is owed. Every call gives back the
client and the device, changed or not, beside its result.
-/

namespace RouteProgramming

/-- Whom a client talks to: the device, or a script that says everything at once and does nothing. -/
inductive Stub where
  | device
  | scripted (responses : List ModifyResponse) (closes : Bool)
deriving DecidableEq, Repr

inductive ConnectionFault where
  | electionIdMissing | electionIdNotUsed | electionIdZero | noFlushTarget
deriving DecidableEq, Repr

namespace ConnectionFault

def message : ConnectionFault → String
  | .electionIdMissing => "an elected primary client needs an initial election id"
  | .electionIdNotUsed => "election ids are only used by elected primary clients"
  | .electionIdZero => "election id must be greater than zero"
  | .noFlushTarget => "flush needs a network instance selection"

end ConnectionFault

inductive ClientError where
  | noStub
  | notStarted
  | invalidConnection (fault : ConnectionFault)
  | invalidEntry (cause : DraftError)
  /-- A wait of that many milliseconds ended with acknowledgments outstanding. -/
  | timeout (milliseconds pending : Nat)
  | paramsRejected (reason : String)
  | session (reason : String)
  | sessionClosed
  | refused (cause : Refusal)
deriving DecidableEq, Repr

namespace ClientError

def message : ClientError → String
  | .noStub => "No stub configured for the connection"
  | .notStarted => "Client not started"
  | .invalidConnection fault => s!"Invalid connection options: {fault.message}"
  | .invalidEntry cause => s!"Invalid entry: {cause.message}"
  | .timeout milliseconds pending =>
    s!"Timed out after {Text.Span.text milliseconds} with {pending} acknowledgments outstanding"
  | .paramsRejected reason => s!"Session parameters rejected: {reason}"
  | .session reason => s!"Session error: {reason}"
  | .sessionClosed => "Session closed by the server"
  | .refused cause => s!"RPC failed: {cause.message}"

def isTimeout : ClientError → Bool
  | .timeout _ _ => true
  | _ => false

/-- How many milliseconds it takes for an error to come: a timeout comes when its time is over, all
others come at once. -/
def delayMs : ClientError → Nat
  | .timeout milliseconds _ => milliseconds
  | _ => 0

end ClientError

/-! ### Options -/

structure Connection where
  stub : Option Stub := none
  params : Parameters := {}
  initialElectionId : Option ElectionId := none
deriving DecidableEq, Repr, Inhabited

namespace Connection

/-- The stub, if the options go together. -/
def check (c : Connection) : Except ClientError Stub :=
  match c.stub with
  | none => .error .noStub
  | some stub =>
    match c.params.redundancy, c.initialElectionId with
    | .singleElectedPrimary, none => .error (.invalidConnection .electionIdMissing)
    | .allPrimary, some _ => .error (.invalidConnection .electionIdNotUsed)
    | .allPrimary, none => .ok stub
    | .singleElectedPrimary, some id =>
      if id.isZero then .error (.invalidConnection .electionIdZero) else .ok stub

end Connection

/-! ### What a client is owed -/

structure Pending where
  params : Bool := false
  election : Bool := false
  operations : KeySet UInt64 := ∅
deriving DecidableEq, Repr, Inhabited

namespace Pending

def count (p : Pending) : Nat := p.params.toNat + p.election.toNat + p.operations.size

def isEmpty (p : Pending) : Bool := p.count == 0

end Pending

inductive Channel where
  | device (client : ClientId)
  | scripted (closed : Bool)
deriving DecidableEq, Repr

structure Stream where
  channel : Channel
  /-- Responses that have arrived, oldest first. -/
  inbox : List ModifyResponse := []
deriving DecidableEq, Repr

structure Client where
  connection : Connection := {}
  stream : Option Stream := none
  electionId : Option ElectionId := none
  nextOperationId : UInt64 := 1
  pending : Pending := {}
  results : List Received := []
deriving DecidableEq, Repr, Inhabited

namespace Channel

/-- Whether no more responses can come. -/
def isClosed (r : Responder) : Channel → Bool
  | .device client => !r.isOpen client
  | .scripted closed => closed

end Channel

namespace Client

def isStarted (c : Client) : Bool := c.stream.isSome

/-! ### Starting and stopping -/

/-- Ends the session of the client's stream. -/
def hangUp (c : Client) (r : Responder) : Responder :=
  match c.stream with
  | some ⟨.device client, _⟩ => r.disconnect client
  | _ => r

def openStream (r : Responder) : Stub → Stream × Responder
  | .device =>
    let (client, r) := r.connect
    (⟨.device client, []⟩, r)
  | .scripted responses closes => (⟨.scripted closes, responses⟩, r)

/-- Opens a new stream in place of any the client has. -/
def start (c : Client) (r : Responder) : Except ClientError Unit × Client × Responder :=
  match c.connection.check with
  | .error e => (.error e, c, r)
  | .ok stub =>
    let (stream, r) := openStream r stub
    (.ok (),
      { c with stream := some stream, electionId := c.connection.initialElectionId, pending := {} },
      c.hangUp r)

/-- Ends the session. What is owed stays owed, and no wait can succeed until the next start. -/
def stop (c : Client) (r : Responder) : Client × Responder := ({ c with stream := none }, c.hangUp r)

/-! ### Sending -/

/-- Sends a request, whose responses arrive at once. -/
def send (c : Client) (r : Responder) (request : ModifyRequest) : Except ClientError Unit × Client × Responder :=
  match c.stream with
  | none => (.error .notStarted, c, r)
  | some ⟨.scripted _, _⟩ => (.ok (), c, r)
  | some ⟨.device client, inbox⟩ =>
    if r.isOpen client then
      let (responses, r) := r.handle client request
      (.ok (), { c with stream := some ⟨.device client, inbox ++ responses⟩ }, r)
    else (.error .sessionClosed, c, r)

/-- The request that settles the parameters of a session, with the election id if there is one. -/
def introduction (c : Client) : ModifyRequest :=
  { params := some c.connection.params, electionId := c.electionId }

/-- A client that is owed answers to its parameters, and to its election id if it has one. -/
def introduced (c : Client) : Client :=
  { c with pending := { c.pending with params := true, election := c.pending.election || c.electionId.isSome } }

/-- A client that is owed an answer to a new election id. -/
def presenting (c : Client) (id : ElectionId) : Client :=
  { c with electionId := some id, pending := { c.pending with election := true } }

/-- Sends the session's parameters, and the election id if there is one. -/
def startSending (c : Client) (r : Responder) : Except ClientError Unit × Client × Responder :=
  c.introduced.send r c.introduction

def updateElectionId (c : Client) (r : Responder) (id : ElectionId) :
    Except ClientError Unit × Client × Responder :=
  (c.presenting id).send r { electionId := some id }

/-- The election id that the client's operations carry. -/
def operationElectionId (c : Client) : Option ElectionId :=
  match c.connection.params.redundancy with
  | .singleElectedPrimary => c.electionId
  | .allPrimary => none

/-- Numbers the operations of a batch from `next` on. -/
def numbered (electionId : Option ElectionId) (next : UInt64) :
    List (OperationType × String × Entry) → List Operation
  | [] => []
  | (op, networkInstance, entry) :: rest =>
    { id := next, networkInstance, op, entry, electionId } :: numbered electionId (next + 1) rest

/-- Reads every draft; the first that is wrong decides. -/
def buildAll : List (OperationType × EntryDraft) → Except DraftError (List (OperationType × String × Entry))
  | [] => .ok []
  | (op, draft) :: rest =>
    match draft.build, buildAll rest with
    | .error e, _ => .error e
    | .ok _, .error e => .error e
    | .ok built, .ok more => .ok ((op, built) :: more)

/-- The operations of a batch, and the client that has numbered them. -/
def number (c : Client) (built : List (OperationType × String × Entry)) : List Operation × Client :=
  let operations := numbered c.operationElectionId c.nextOperationId built
  (operations, { c with nextOperationId := c.nextOperationId + UInt64.ofNat operations.length })

/-- A client that is owed acknowledgments. -/
def owed (c : Client) (ids : List UInt64) : Client :=
  { c with pending := { c.pending with operations := ids.foldl (fun s id => s.insert id ()) c.pending.operations } }

/-- Sends a batch and returns the ids given to its operations. -/
def modify (c : Client) (r : Responder) (batch : List (OperationType × EntryDraft)) :
    Except ClientError (List UInt64) × Client × Responder :=
  match buildAll batch with
  | .error e => (.error (.invalidEntry e), c, r)
  | .ok built =>
    let (operations, c) := c.number built
    match c.send r { operations } with
    | (.error e, c, r) => (.error e, c, r)
    | (.ok (), c, r) =>
      let ids := operations.map (·.id)
      (.ok ids, c.owed ids, r)

/-! ### Waiting -/

/-- Keeps an answer to the parameters. -/
def acceptParams (c : Client) : Option ParametersResult → Except ClientError Unit × Client
  | none => (.ok (), c)
  | some result =>
    let c := { c with
      pending := { c.pending with params := false }
      results := c.results ++ [{ params := some result }] }
    match result with
    | .ok => (.ok (), c)
    | .error reason => (.error (.paramsRejected reason), c)

def acceptElection (c : Client) : Option ElectionId → Client
  | none => c
  | some id =>
    { c with
      pending := { c.pending with election := false }
      results := c.results ++ [{ electionId := some id }] }

def acceptAcknowledgment (c : Client) (a : Acknowledgment) : Client :=
  { c with
    pending := { c.pending with operations := c.pending.operations.erase a.id }
    results := c.results ++ [.ofAcknowledgment a] }

/-- Keeps what a response says. Rejected parameters hide the rest of it, an error comes last. -/
def accept (c : Client) (m : ModifyResponse) : Except ClientError Unit × Client :=
  match c.acceptParams m.paramsResult with
  | (.error e, c) => (.error e, c)
  | (.ok (), c) =>
    let c := m.results.foldl acceptAcknowledgment (c.acceptElection m.electionId)
    match m.error with
    | some reason => (.error (.session reason), c)
    | none => (.ok (), c)

/-- Takes responses until nothing is owed. `closed` says whether an empty inbox stays empty. -/
def awaitFrom (channel : Channel) (closed : Bool) (timeout : Nat) :
    List ModifyResponse → Client → Except ClientError Unit × Client
  | inbox, c =>
    let c := { c with stream := some ⟨channel, inbox⟩ }
    if c.pending.isEmpty then (.ok (), c)
    else
      match inbox with
      | [] => (.error (if closed then .sessionClosed else .timeout timeout c.pending.count), c)
      | m :: inbox =>
        match { c with stream := some ⟨channel, inbox⟩ }.accept m with
        | (.error e, c) => (.error e, c)
        | (.ok (), c) => awaitFrom channel closed timeout inbox c

/-- Waits until nothing is owed, for at most `timeout` milliseconds. -/
def await (c : Client) (r : Responder) (timeout : Nat) : Except ClientError Unit × Client :=
  match c.stream with
  | some s => awaitFrom s.channel (s.channel.isClosed r) timeout s.inbox c
  | none => (if c.pending.isEmpty then .ok () else .error .notStarted, c)

/-! ### Calls outside the session -/

/-- A flush carries the client's election id unless it overrides the election. -/
def flush (c : Client) (r : Responder) (target : Option FlushTarget) (electionOverride : Bool) :
    Except ClientError FlushResponse × Responder :=
  match target, c.connection.stub with
  | none, _ => (.error (.invalidConnection .noFlushTarget), r)
  | some _, none => (.error .noStub, r)
  | some _, some (.scripted _ _) => (.error (.refused .sessionClosed), r)
  | some target, some .device =>
    match r.flush ⟨target, electionOverride, if electionOverride then none else c.electionId⟩ with
    | .error e => (.error (.refused e), r)
    | .ok (response, r) => (.ok response, r)

def get (c : Client) (r : Responder) (networkInstance : String) : Except ClientError (List InstalledEntry) :=
  match c.connection.stub with
  | none => .error .noStub
  | some (.scripted _ _) => .ok []
  | some .device => (r.get networkInstance).mapError .refused

end Client

end RouteProgramming
