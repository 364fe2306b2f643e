import RouteProgramming.Client
import RouteProgramming.Proofs.Responder.Conversation

/-! A client and the device side by side. Requests and responses are under way
for any time, each kind in its order; meanwhile the client may send more, and
other sessions, flushes and the forwarding plane may do anything. A wait looks
at the responses that have come, one at a time. -/

namespace RouteProgramming

namespace Client

/-- The client after more responses have come. -/
def hear (c : Client) (ms : List ModifyResponse) : Client :=
  { c with stream := c.stream.map fun s => { s with inbox := s.inbox ++ ms } }

/-- Responses that have come and have not been looked at. -/
def inbox (c : Client) : List ModifyResponse := (c.stream.map (·.inbox)).getD []

/-- The oldest response that has come, and the client without it. -/
def take? (c : Client) : Option (ModifyResponse × Client) :=
  match c.stream with
  | some ⟨channel, m :: inbox⟩ => some (m, { c with stream := some ⟨channel, inbox⟩ })
  | _ => none

/-- The client has a line to the session. -/
def On (c : Client) (session : ClientId) : Prop := c.stream = some ⟨.device session, c.inbox⟩

variable {c : Client} {session : ClientId} {ms ns : List ModifyResponse}

theorem inbox_hear (hc : c.On session) (ms : List ModifyResponse) : (c.hear ms).inbox = c.inbox ++ ms := by
  rw [inbox, hear, hc]
  rfl

theorem On.hear (hc : c.On session) (ms : List ModifyResponse) : (c.hear ms).On session := by
  rw [On, inbox_hear hc, Client.hear, hc]
  rfl

theorem hear_hear (c : Client) (ms ns : List ModifyResponse) : (c.hear ms).hear ns = c.hear (ms ++ ns) := by
  simp only [hear, Option.map_map]
  congr 2
  funext s
  simp

theorem stream_accept (c : Client) (m : ModifyResponse) : (c.accept m).2.stream = c.stream := by
  have hacks (as : List Acknowledgment) (c : Client) : (as.foldl acceptAcknowledgment c).stream = c.stream := by
    induction as generalizing c with
    | nil => rfl
    | cons a as ih => exact ih _
  have helection (id? : Option ElectionId) (c : Client) : (c.acceptElection id?).stream = c.stream := by
    cases id? <;> rfl
  have hparams (result? : Option ParametersResult) (c : Client) : (c.acceptParams result?).2.stream = c.stream := by
    rcases result? with _ | _ | _ <;> rfl
  rw [accept, ← hparams m.paramsResult c]
  rcases c.acceptParams m.paramsResult with ⟨_ | _, c⟩
  · rfl
  · dsimp only
    cases m.error with
    | none => exact (hacks ..).trans (helection ..)
    | some reason => exact (hacks ..).trans (helection ..)

theorem withStream_self {s : Stream} (h : c.stream = some s) : { c with stream := some s } = c := by
  rw [← h]

theorem hear_nil (c : Client) : c.hear [] = c := by
  simp [hear]

end Client

structure Exchange where
  service : Service
  session : ClientId
  client : Client
  /-- Requests that are under way, oldest first. -/
  outbox : List ModifyRequest := []
  /-- The session has let go of the line, some time after it ended. -/
  cut : Bool := false
  -- What has happened so far. No step depends on it.
  /-- All requests sent, oldest first. -/
  sent : List ModifyRequest := []
  /-- All responses that the client has looked at, oldest first. -/
  received : List ModifyResponse := []
  /-- The requests that the session has taken, the latest first. -/
  rounds : List Service.Round := []

namespace Exchange

open Service Responder

/-- A client that has just opened a stream. -/
def start (h : Chronicle) (c : Client) : Exchange where
  service := (h.service.step .connect).2
  session := h.responder.nextClient
  client :=
    { c with
      stream := some ⟨.device h.responder.nextClient, []⟩
      electionId := c.connection.initialElectionId
      pending := {} }

/-! ### The client -/

/-- Sends a request, which fails when the line is cut. -/
def post (e : Exchange) (request : ModifyRequest) : Except ClientError Unit × Exchange :=
  if e.cut then (.error .sessionClosed, e)
  else (.ok (), { e with outbox := e.outbox ++ [request], sent := e.sent ++ [request] })

def startSending (e : Exchange) : Except ClientError Unit × Exchange :=
  { e with client := e.client.introduced }.post e.client.introduction

def updateElectionId (e : Exchange) (id : ElectionId) : Except ClientError Unit × Exchange :=
  { e with client := e.client.presenting id }.post { electionId := some id }

def modify (e : Exchange) (batch : List (OperationType × EntryDraft)) : Except ClientError (List UInt64) × Exchange :=
  match Client.buildAll batch with
  | .error cause => (.error (.invalidEntry cause), e)
  | .ok built =>
    let (operations, client) := e.client.number built
    match { e with client }.post { operations } with
    | (.error cause, e) => (.error cause, e)
    | (.ok (), e) =>
      let ids := operations.map (·.id)
      (.ok ids, { e with client := e.client.owed ids })

/-- One turn of a wait. It may end it, with or without success; a wait that does not end here may go on or time out. -/
def look (e : Exchange) : Option (Except ClientError Unit) × Exchange :=
  if e.client.pending.isEmpty then (some (.ok ()), e)
  else
    match e.client.take? with
    | none => (if e.cut then some (.error .sessionClosed) else none, e)
    | some (m, client) =>
      match client.accept m with
      | (.error cause, client) => (some (.error cause), { e with client, received := e.received ++ [m] })
      | (.ok (), client) => (none, { e with client, received := e.received ++ [m] })

/-! ### The device -/

/-- Something happens at the device. -/
def happen (e : Exchange) (v : Service.Event) : Exchange :=
  { e with
    service := (e.service.step v).2
    client := e.client.hear (e.service.said e.session v)
    rounds := e.service.record e.session e.rounds v }

/-- The session takes the oldest request, if it can. -/
def deliver (e : Exchange) : Exchange :=
  match e.outbox with
  | [] => e
  | request :: outbox =>
    if e.service.Ready e.session then { e.happen (.request e.session request) with outbox } else e

/-- Only the client itself makes its session take a request, stops to take responses, or ends its stream. -/
def isOwn (e : Exchange) : Service.Event → Bool
  | .request client _ | .hangUp client | .deafen client => client = e.session
  | _ => false

inductive Action where
  | configure (connection : Connection)
  | startSending
  | updateElectionId (id : ElectionId)
  | modify (batch : List (OperationType × EntryDraft))
  | look
  | deliver
  /-- A turn of the session, or something that has nothing to do with it. -/
  | happen (v : Service.Event)
  | cut

def step (e : Exchange) : Action → Exchange
  | .configure connection => { e with client := { e.client with connection } }
  | .startSending => e.startSending.2
  | .updateElectionId id => (e.updateElectionId id).2
  | .modify batch => (e.modify batch).2
  | .look => e.look.2
  | .deliver => e.deliver
  | .happen v => if e.isOwn v then e else e.happen v
  | .cut => { e with cut := e.cut || !e.service.responder.isOpen e.session }

def run (e : Exchange) (actions : List Action) : Exchange := actions.foldl step e

/-- The turns that a session needs for a request at most, with nothing in between. -/
def serving (session : ClientId) : List Action := .deliver :: List.replicate 3 (.happen (.proceed session))

end Exchange

end RouteProgramming
