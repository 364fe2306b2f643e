import RouteProgramming.Responder

/-!
Sessions under names. A name has one line at a time: connecting again drops the line that was there,
whose session then ends. Sessions do their work in turns, in the order in which something happened
to them, and every `send` and `close` lets all of them finish.
-/

namespace RouteProgramming

structure Line where
  client : ClientId
  /-- Whether the client can still send. -/
  sending : Bool := true
deriving DecidableEq, Repr

structure Switchboard where
  responder : Responder
  lines : Table String Line := ∅
  /-- Sessions that have something to do, each once. -/
  turns : List ClientId := []
deriving DecidableEq, Repr

/-- What came back on a line. -/
structure Reply where
  responses : List ModifyResponse := []
  /-- Whether the session has ended. -/
  finished : Bool
deriving DecidableEq, Repr

namespace Switchboard

def enqueue (s : Switchboard) (client : ClientId) : Switchboard :=
  if s.turns.contains client then s else { s with turns := s.turns ++ [client] }

def isSending (s : Switchboard) (client : ClientId) : Bool :=
  s.lines.values.any (fun l => l.client == client && l.sending)

def connect (s : Switchboard) (name : String) : ClientId × Switchboard :=
  let (client, responder) := s.responder.connect
  let opened := { s with responder, lines := s.lines.insert name ⟨client, true⟩ }.enqueue client
  match s.lines.get? name with
  | some old => (client, opened.enqueue old.client)
  | none => (client, opened)

/-- Gives the sessions their turns: one whose line is gone ends, and the one addressed gets the request. -/
def runTurns (s : Switchboard) (request : Option (ClientId × ModifyRequest)) :
    List ClientId → List ModifyResponse × Responder
  | [] => ([], s.responder)
  | client :: rest =>
    let (responses, responder) :=
      if s.isSending client then
        match request with
        | some (target, request) =>
          if target = client then s.responder.handle client request else ([], s.responder)
        | none => ([], s.responder)
      else ([], s.responder.disconnect client)
    let (more, responder) := runTurns { s with responder } request rest
    (responses ++ more, responder)

def settle (s : Switchboard) (request : Option (ClientId × ModifyRequest)) : List ModifyResponse × Switchboard :=
  let (responses, responder) := s.runTurns request s.turns
  (responses, { s with responder, turns := [] })

/-- Sends a request; nothing can be sent once the session has ended. -/
def send (s : Switchboard) (name : String) (request : ModifyRequest) : Option (Reply × Switchboard) :=
  match s.lines.get? name with
  | some ⟨client, true⟩ =>
    if s.responder.isOpen client then
      let (responses, s) := (s.enqueue client).settle (some (client, request))
      some (⟨responses, !s.responder.isOpen client⟩, s)
    else none
  | _ => none

/-- Ends the sending side of a line, and the session with it. -/
def close (s : Switchboard) (name : String) : Reply × Switchboard :=
  match s.lines.get? name with
  | some line =>
    let closing := { s with lines := s.lines.insert name ⟨line.client, false⟩ }.enqueue line.client
    (⟨[], true⟩, (closing.settle none).2)
  | none => (⟨[], true⟩, s)

def deafen (s : Switchboard) (name : String) : Switchboard :=
  match s.lines.get? name with
  | some line => { s with responder := s.responder.deafen line.client }
  | none => s

end Switchboard

end RouteProgramming
