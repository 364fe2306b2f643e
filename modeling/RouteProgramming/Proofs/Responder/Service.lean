import RouteProgramming.Responder
import RouteProgramming.Proofs.Rib.History

/-! The responder at work for any number of sessions. A session takes a request,
goes through its stages one at a time, and ends when a stage has failed or when
its line has ended; between two stages of one session the others, flushes and
the forwarding plane may do anything. A request that nobody comes in between is
handled as a whole. The tables may have any capacity; as for any history, the
counts in them fit 32 bits with one below 2 ^ 32 - 1 (`Coherent.holders?_le`). -/

namespace RouteProgramming

/-- What a session does at its next turn. -/
inductive Duty where
  /-- Takes a request, and with it goes through the first stage. -/
  | listen
  | elect (id : Option ElectionId) (operations : List Operation)
  | program (operations : List Operation)
  /-- Ends, since a stage has failed. -/
  | leave
deriving DecidableEq, Repr

/-- The events that come from outside: failures injected and interfaces changed. -/
def Rib.Event.isOutside : Rib.Event → Bool
  | .failNext _ | .configure _ _ _ _ | .removeInterface _ => true
  | _ => false

structure Service where
  responder : Responder
  /-- The sessions that have been given something to do. All others listen. -/
  duties : Table ClientId Duty := ∅
deriving DecidableEq, Repr

namespace Service

inductive Event where
  | connect
  | request (client : ClientId) (request : ModifyRequest)
  /-- A session in the middle of something has its next turn. -/
  | proceed (client : ClientId)
  /-- A session that waits for a request learns that there will be none. -/
  | hangUp (client : ClientId)
  | deafen (client : ClientId)
  | flush (request : FlushRequest)
  | plane (change : Rib.Event) (outside : change.isOutside)

def duty (s : Service) (client : ClientId) : Duty := (s.duties.get? client).getD .listen

/-- The state after a stage, with the duty to follow if it has not failed. A session that fails says why. -/
def conclude (s : Service) (client : ClientId) (p : Responder.Progress) (next : Duty) :
    List ModifyResponse × Service :=
  match p.refusal with
  | none => (p.responses, ⟨p.state, s.duties.insert client next⟩)
  | some e =>
    let farewell := if p.state.hears client then [{ error := some e.message }] else []
    (p.responses ++ farewell, ⟨p.state, s.duties.insert client .leave⟩)

def close (s : Service) (client : ClientId) : Service :=
  ⟨s.responder.disconnect client, s.duties.erase client⟩

/-- The responses that an event causes, and the service after it. What cannot happen changes nothing. -/
def step (s : Service) : Event → List ModifyResponse × Service
  | .connect => ([], { s with responder := s.responder.connect.2 })
  | .request client request =>
    if s.responder.isOpen client ∧ s.duty client = .listen then
      s.conclude client (s.responder.settle client request.params) (.elect request.electionId request.operations)
    else ([], s)
  | .proceed client =>
    match s.duty client with
    | .listen => ([], s)
    | .elect id operations => s.conclude client (s.responder.elect client id) (.program operations)
    | .program operations => s.conclude client (s.responder.runBatch client operations) .listen
    | .leave => ([], s.close client)
  | .hangUp client => ([], if s.duty client = .listen then s.close client else s)
  | .deafen client => ([], { s with responder := s.responder.deafen client })
  | .flush request =>
    match s.responder.flush request with
    | .ok (_, responder) => ([], { s with responder })
    | .error _ => ([], s)
  | .plane change _ => ([], { s with responder := { s.responder with rib := s.responder.rib.step change } })

def run (s : Service) (events : List Event) : Service := events.foldl (fun s v => (s.step v).2) s

/-- All responses to a list of events, in order. -/
def transcript (s : Service) : List Event → List ModifyResponse
  | [] => []
  | v :: vs => (s.step v).1 ++ (s.step v).2.transcript vs

variable {s : Service} {client : ClientId}

theorem run_append (s : Service) (es fs : List Event) : s.run (es ++ fs) = (s.run es).run fs :=
  List.foldl_append

theorem run_concat (s : Service) (es : List Event) (v : Event) : s.run (es ++ [v]) = ((s.run es).step v).2 :=
  run_append s es [v]

/-! ### A request that nobody comes in between -/

def turns (client : ClientId) : Nat → List Event
  | 0 => []
  | n + 1 => .proceed client :: turns client n

/-- What a list of events comes to: all responses, and the responder at the end. -/
def play (s : Service) (vs : List Event) : List ModifyResponse × Responder :=
  (s.transcript vs, (s.run vs).responder)

theorem play_cons (s : Service) (v : Event) (vs : List Event) :
    s.play (v :: vs) = ((s.step v).1 ++ ((s.step v).2.play vs).1, ((s.step v).2.play vs).2) := rfl

theorem duty_insert (r : Responder) (t : Table ClientId Duty) (client : ClientId) (d : Duty) :
    duty ⟨r, t.insert client d⟩ client = d := by
  rw [duty, Table.get?_insert_self, Option.getD_some]

theorem duty_close (s : Service) (client : ClientId) : (s.close client).duty client = .listen := by
  rw [duty, close, Table.get?_erase_self, Option.getD_none]

theorem play_listen (h : s.duty client = .listen) (n : Nat) :
    s.play (turns client n) = ([], s.responder) := by
  induction n with
  | zero => rfl
  | succ n ih => rw [turns, play_cons, step, h, ih, List.append_nil]

theorem play_leave (h : s.duty client = .leave) (n : Nat) :
    s.play (turns client (n + 1)) = ([], s.responder.disconnect client) := by
  rw [turns, play_cons, step, h, play_listen (duty_close s client), List.append_nil, close]

end Service

namespace Responder.Progress

variable {p : Progress} {client : ClientId}

/-- What a session has said at the end of a request, and the responder then. -/
def outcome (p : Progress) (client : ClientId) : List ModifyResponse × Responder :=
  match p.refusal with
  | none => (p.responses, p.state)
  | some e =>
    let farewell := if p.state.hears client then [{ error := some e.message }] else []
    (p.responses ++ farewell, p.state.disconnect client)

theorem andThen_assoc (p : Progress) (f g : Responder → Progress) :
    (p.andThen f).andThen g = p.andThen (fun r => (f r).andThen g) := by
  cases hp : p.refusal with
  | some e => simp [andThen, hp]
  | none =>
    cases hf : (f p.state).refusal with
    | some e => simp [andThen, hp, hf]
    | none => simp [andThen, hp, hf]

theorem outcome_andThen_of_some {e : Refusal} (h : p.refusal = some e) (f : Responder → Progress) :
    (p.andThen f).outcome client = p.outcome client := by
  rw [andThen, h]

theorem outcome_andThen_of_none (h : p.refusal = none) (f : Responder → Progress) :
    (p.andThen f).outcome client =
      (p.responses ++ ((f p.state).outcome client).1, ((f p.state).outcome client).2) := by
  rw [andThen, h]
  cases hf : (f p.state).refusal with
  | some e => simp [outcome, hf]
  | none => simp [outcome, hf]

end Responder.Progress

namespace Service

open Responder (Progress)

variable {s : Service} {client : ClientId} {p : Progress} {next : Duty} {v : Event}

/-- A stage that fails, and the turn in which the session ends. -/
theorem play_refused {e : Refusal} (h : p.refusal = some e) (hstep : s.step v = s.conclude client p next)
    (n : Nat) : s.play (v :: turns client (n + 1)) = p.outcome client := by
  rw [play_cons, hstep, conclude, Progress.outcome, h]
  dsimp only
  rw [play_leave (duty_insert ..), List.append_nil]

/-- The last stage of a request. -/
theorem play_last (hstep : s.step v = s.conclude client p .listen) (n : Nat) :
    s.play (v :: turns client (n + 1)) = p.outcome client := by
  cases h : p.refusal with
  | some e => exact play_refused h hstep n
  | none =>
    rw [play_cons, hstep, conclude, Progress.outcome, h]
    dsimp only
    rw [play_listen (duty_insert ..), List.append_nil]

/-- A stage and what comes after it. -/
theorem play_stage {stage : Responder → Progress} {n : Nat} (hstep : s.step v = s.conclude client p next)
    (hrest : ∀ t : Service, t.responder = p.state → t.duty client = next →
      t.play (turns client (n + 1)) = (stage p.state).outcome client) :
    s.play (v :: turns client (n + 1)) = (p.andThen stage).outcome client := by
  cases h : p.refusal with
  | some e => rw [play_refused h hstep, Progress.outcome_andThen_of_some h]
  | none =>
    rw [play_cons, hstep, conclude, h, Progress.outcome_andThen_of_none h]
    dsimp only
    rw [hrest _ rfl (duty_insert ..)]

/-- A request that a session takes and serves without anything in between is handled as a whole. -/
theorem handle_eq_play {request : ModifyRequest} (hopen : s.responder.isOpen client)
    (hlisten : s.duty client = .listen) :
    s.responder.handle client request = s.play (.request client request :: turns client 3) := by
  have hwhole : s.responder.handle client request =
      (s.responder.serve client request).outcome client := rfl
  have hfirst : s.step (.request client request) = s.conclude client (s.responder.settle client request.params)
      (.elect request.electionId request.operations) := if_pos ⟨hopen, hlisten⟩
  rw [hwhole, Responder.serve, Progress.andThen_assoc]
  refine (play_stage hfirst fun t ht hduty => ?_).symm
  have hsecond : t.step (.proceed client) = t.conclude client (t.responder.elect client request.electionId)
      (.program request.operations) := by rw [step, hduty]
  rw [← ht]
  refine play_stage hsecond fun u hu hduty => ?_
  have hthird : u.step (.proceed client) =
      u.conclude client (u.responder.runBatch client request.operations) .listen := by rw [step, hduty]
  rw [← hu]
  exact play_last hthird 0

end Service

/-- A new responder over an empty forwarding plane, and all that happened to it. -/
structure Chronicle where
  config : ResponderConfig
  events : List Service.Event

namespace Chronicle

def start (h : Chronicle) : Service := { responder := Responder.create h.config }

def service (h : Chronicle) : Service := h.start.run h.events

def responder (h : Chronicle) : Responder := h.service.responder

/-- The chronicle up to and without the last events. -/
def before (h : Chronicle) (events : List Service.Event) : Chronicle := { h with events }

/-- The service before the last event, and the service after it. -/
theorem service_concat (h : Chronicle) (es : List Service.Event) (v : Service.Event) :
    (h.before (es ++ [v])).service = ((h.before es).service.step v).2 :=
  Service.run_concat _ es v

end Chronicle

end RouteProgramming
