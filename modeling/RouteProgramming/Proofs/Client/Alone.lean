import RouteProgramming.Proofs.Client.Notes

/-! A client that has the device to itself. When it makes a call nothing is under
way, and the request is served before anything else happens; when it waits,
nothing happens. Then each call of an exchange is the call of the client to the
device as it stands, and leaves nothing under way. So all that such a client does
from its start on is a run of an exchange. -/

namespace RouteProgramming

namespace Client

/-- What a client does that has the device to itself. -/
inductive Move where
  | configure (connection : Connection)
  | call (a : Call)
  | wait (timeout : Nat)

/-- The client and the device after a move. -/
def move (c : Client) (r : Responder) : Move → Client × Responder
  | .configure connection => ({ c with connection }, r)
  | .call a => (c.perform r a).2
  | .wait timeout => ((c.await r timeout).2, r)

def moves (c : Client) (r : Responder) : List Move → Client × Responder
  | [] => (c, r)
  | m :: ms => (c.move r m).1.moves (c.move r m).2 ms

end Client

/-- Three turns are enough for any request. -/
theorem Service.duty_run_turns (s : Service) (client : ClientId) : (s.run (turns client 3)).duty client = .listen := by
  have hcount : (turns client 3).countP (·.isTurn client) = 3 := by simp [turns, Event.isTurn]
  refine duty_run_of_turns (fun ds request fs hes => ?_) (Nat.le_trans (turnsLeft_le _) (Nat.le_of_eq hcount.symm))
  have hmem : Event.request client request ∈ turns client 3 := by
    rw [hes]
    exact List.mem_append_right ds List.mem_cons_self
  simp [turns] at hmem

namespace Exchange

open Service Responder

variable {e : Exchange} {c : Client}

/-! ### Serving -/

def serve (e : Exchange) : Exchange := e.run (serving e.session)

theorem session_deliver (e : Exchange) : e.deliver.session = e.session := by
  rw [deliver]
  split
  · rfl
  · split <;> rfl

theorem serve_eq (e : Exchange) :
    e.serve = e.deliver.run (List.replicate 3 (.happen (.proceed e.deliver.session))) := by
  rw [session_deliver]
  rfl

theorem run_turns (n : Nat) : e.run (List.replicate n (.happen (.proceed e.session))) =
    { e with
      service := e.service.run (turns e.session n)
      client := e.client.hear (e.service.transcript (turns e.session n))
      rounds := e.service.rounds e.session e.rounds (turns e.session n) } := by
  induction n generalizing e with
  | zero =>
    rw [turns, transcript, Client.hear_nil]
    rfl
  | succ n ih =>
    have hown : e.service.session? (.proceed e.session) = some e.session := rfl
    have hstep : e.step (.happen (.proceed e.session)) = e.happen (.proceed e.session) := rfl
    have hrest := ih (e := e.happen (.proceed e.session))
    rw [List.replicate_succ, run, List.foldl_cons, hstep]
    refine hrest.trans ?_
    rw [happen, turns, transcript, said_of_own hown]
    dsimp only
    rw [Client.hear_hear]
    rfl

/-- Notes of acknowledgments that are owed may come before the session's turn or after it. -/
theorem serve_owed (e : Exchange) (ids : List UInt64) :
    serve { e with client := e.client.owed ids } = { e.serve with client := e.serve.client.owed ids } := by
  have hdeliver : deliver { e with client := e.client.owed ids } =
      { e.deliver with client := e.deliver.client.owed ids } := by
    simp only [deliver]
    split
    · rfl
    · split <;> rfl
  rw [serve_eq, serve_eq, hdeliver, run_turns, run_turns]
  rfl

/-- The exchange when the session has taken a request that was sent to it just now. -/
def taking (e : Exchange) (request : ModifyRequest) : Exchange :=
  { e.happen (.request e.session request) with outbox := [], sent := e.sent ++ [request] }

/-! ### Nothing under way -/

/-- Nothing is under way, and the line is cut as soon as the session has ended. -/
structure Alone (e : Exchange) : Prop where
  on : e.client.On e.session
  idle : e.service.duty e.session = .listen
  empty : e.outbox = []
  cut : e.cut = !e.service.responder.isOpen e.session

theorem start_alone (h : Chronicle) (c : Client) : Alone (start h c) := by
  have hopen : (start h c).service.responder.isOpen (start h c).session = true :=
    congrArg Option.isSome (Table.get?_insert_self ..)
  refine ⟨rfl, h.duty_unopened (Nat.le_refl _), rfl, ?_⟩
  rw [hopen]
  rfl

namespace Alone

/-- The client may note what it likes. -/
theorem noting (h : e.Alone) (same : c.stream = e.client.stream) : Alone { e with client := c } := by
  refine ⟨?_, h.idle, h.empty, h.cut⟩
  rw [Client.On, Client.inbox, same]
  exact h.on

theorem serve_self (h : e.Alone) : e.serve = e := by
  have hdeliver : e.deliver = e := by
    rw [deliver, h.empty]
  have hservice : e.service.step (.proceed e.session) = ([], e.service) := by
    rw [Service.step, h.idle]
  have hrounds : e.service.record e.session e.rounds (.proceed e.session) = e.rounds :=
    record_of_idle _ (.inl h.idle) fun request heq => by cases heq
  have hturn : e.step (.happen (.proceed e.session)) = e := by
    have hown : e.isOwn (.proceed e.session) = false := rfl
    rw [step, hown, if_neg Bool.false_ne_true, happen, said_of_own rfl, hservice, Client.hear_nil, hrounds]
  rw [serve_eq, hdeliver]
  simp only [run, List.replicate, List.foldl, hturn]

theorem cut_self (h : e.Alone) : e.step .cut = e := by
  rw [step, ← h.cut, Bool.or_self]

theorem post_ended (h : e.Alone) (ended : e.service.responder.isOpen e.session = false) (request : ModifyRequest) :
    e.post request = (.error .sessionClosed, e) := by
  rw [post, h.cut, ended]
  rfl

theorem post_open (h : e.Alone) (opened : e.service.responder.isOpen e.session = true) (request : ModifyRequest) :
    e.post request = (.ok (), { e with outbox := [request], sent := e.sent ++ [request] }) := by
  rw [post, h.cut, opened, h.empty]
  rfl

theorem serve_post (h : e.Alone) (opened : e.service.responder.isOpen e.session = true) (request : ModifyRequest) :
    (e.post request).2.serve =
      (e.taking request).run (List.replicate 3 (.happen (.proceed (e.taking request).session))) := by
  have hdeliver : (e.post request).2.deliver = e.taking request := by
    rw [h.post_open opened]
    exact if_pos ⟨opened, h.idle⟩
  rw [serve_eq, hdeliver]

/-- Once a request has been served, and the line cut if the session has ended, nothing is under way again. -/
theorem post (h : e.Alone) (request : ModifyRequest) : ((e.post request).2.serve.step .cut).Alone := by
  cases opened : e.service.responder.isOpen e.session with
  | false =>
    rw [h.post_ended opened, h.serve_self, h.cut_self]
    exact h
  | true =>
    have hon : (e.taking request).client.On (e.taking request).session := h.on.hear _
    have hcut : (e.taking request).cut = false := by
      rw [taking, happen, h.cut, opened]
      rfl
    rw [h.serve_post opened, run_turns, step]
    refine ⟨hon.hear _, duty_run_turns _ _, rfl, ?_⟩
    rw [hcut, Bool.false_or]

end Alone

/-! ### Calls -/

/-- To start is to open a stream on the next session. -/
theorem start_eq {h : Chronicle} (stub : c.connection.check = .ok .device) (idle : c.stream = none) :
    c.start h.responder = (.ok (), (start h c).client, (start h c).service.responder) := by
  have hkept : c.hangUp (Client.openStream h.responder .device).2 = (Client.openStream h.responder .device).2 := by
    rw [Client.hangUp, idle]
  rw [Client.start, stub]
  dsimp only
  rw [hkept]
  rfl

/-- What is left of a call when all that it has sent has been served. -/
def served {α : Type} (call : Except ClientError α × Exchange) : Except ClientError α × Client × Responder :=
  (call.1, call.2.serve.client, call.2.serve.service.responder)

/-- A request that is served at once has the responses and the effect of one that is sent to the device directly. -/
theorem send_eq (h : e.Alone) (request : ModifyRequest) :
    e.client.send e.service.responder request = served (e.post request) := by
  rw [Client.send, h.on, served]
  dsimp only
  cases opened : e.service.responder.isOpen e.session with
  | false =>
    rw [h.post_ended opened, h.serve_self]
    rfl
  | true =>
    have hown : e.service.session? (.request e.session request) = some e.session := rfl
    rw [if_pos rfl, h.serve_post opened, run_turns, h.post_open opened, handle_eq_play opened h.idle, play, transcript,
      taking, happen]
    dsimp only
    rw [said_of_own hown, Client.hear_hear]
    rw [Client.hear, h.on]
    rfl

theorem startSending_eq (h : e.Alone) : e.client.startSending e.service.responder = served e.startSending :=
  send_eq (h.noting (c := e.client.introduced) rfl) e.client.introduction

theorem updateElectionId_eq (h : e.Alone) (id : ElectionId) :
    e.client.updateElectionId e.service.responder id = served (e.updateElectionId id) :=
  send_eq (h.noting (c := e.client.presenting id) rfl) { electionId := some id }

theorem modify_eq (h : e.Alone) (batch : List (OperationType × EntryDraft)) :
    e.client.modify e.service.responder batch = served (e.modify batch) := by
  rw [Client.modify, modify]
  cases hbuilt : Client.buildAll batch with
  | error cause =>
    rw [served, h.serve_self]
  | ok built =>
    have hsend := send_eq (h.noting (c := (e.client.number built).2) rfl) { operations := (e.client.number built).1 }
    dsimp only at hsend ⊢
    rw [hsend, served]
    rcases post { e with client := (e.client.number built).2 } { operations := (e.client.number built).1 } with ⟨_ | _, e'⟩
    · rfl
    · dsimp only
      rw [served, serve_owed]

def call (e : Exchange) : Client.Call → Except ClientError (List UInt64) × Exchange
  | .startSending => (e.startSending.1.map fun () => [], e.startSending.2)
  | .updateElectionId id => ((e.updateElectionId id).1.map fun () => [], (e.updateElectionId id).2)
  | .modify batch => e.modify batch

theorem perform_eq (h : e.Alone) (a : Client.Call) :
    e.client.perform e.service.responder a = served (e.call a) := by
  cases a with
  | startSending =>
    rw [Client.perform, startSending_eq h]
    rfl
  | updateElectionId id =>
    rw [Client.perform, updateElectionId_eq h]
    rfl
  | modify batch => exact modify_eq h batch

theorem Alone.call (h : e.Alone) (a : Client.Call) : ((e.call a).2.serve.step .cut).Alone := by
  cases a with
  | startSending => exact (h.noting (c := e.client.introduced) rfl).post _
  | updateElectionId id => exact (h.noting (c := e.client.presenting id) rfl).post _
  | modify batch =>
    rw [Exchange.call, modify]
    cases hbuilt : Client.buildAll batch with
    | error cause =>
      rw [h.serve_self, h.cut_self]
      exact h
    | ok built =>
      have hposted := (h.noting (c := (e.client.number built).2) rfl).post { operations := (e.client.number built).1 }
      dsimp only
      generalize Exchange.post { e with client := (e.client.number built).2 }
        { operations := (e.client.number built).1 } = sent at hposted ⊢
      rcases sent with ⟨_ | _, f⟩
      · exact hposted
      · dsimp only
        rw [serve_owed]
        exact hposted.noting rfl

/-! ### Waits -/

/-- A wait during which nothing happens: it looks at what has come until that ends it or there is no more. -/
def wait (timeout : Nat) : Nat → Exchange → Except ClientError Unit × Exchange
  | 0, e => (.error (.timeout timeout e.client.pending.count), e)
  | n + 1, e =>
    match e.look with
    | (some result, e) => (result, e)
    | (none, e) => e.wait timeout n

theorem awaitFrom_eq {inbox : List ModifyResponse} (on : e.client.stream = some ⟨.device e.session, inbox⟩)
    (timeout : Nat) : Client.awaitFrom (.device e.session) e.cut timeout inbox e.client =
      ((wait timeout (inbox.length + 1) e).1, (wait timeout (inbox.length + 1) e).2.client) := by
  induction inbox generalizing e with
  | nil =>
    rw [Client.awaitFrom, Client.withStream_self on, List.length_nil, wait, look]
    split
    · rfl
    · rw [Client.take?, on]
      cases e.cut <;> rfl
  | cons m inbox ih =>
    rw [Client.awaitFrom, Client.withStream_self on, List.length_cons, wait, look]
    split
    · rfl
    · rw [Client.take?, on]
      dsimp only
      have hstream := Client.stream_accept { e.client with stream := some ⟨.device e.session, inbox⟩ } m
      cases haccept : Client.accept { e.client with stream := some ⟨.device e.session, inbox⟩ } m with
      | mk result client =>
        rw [haccept] at hstream
        cases result with
        | error cause => rfl
        | ok => exact ih (e := { e with client, received := e.received ++ [m] }) hstream

/-- The wait of a client whose line is cut as soon as its session has ended. -/
theorem await_eq (h : e.Alone) (timeout : Nat) : e.client.await e.service.responder timeout =
    ((wait timeout (e.client.inbox.length + 1) e).1, (wait timeout (e.client.inbox.length + 1) e).2.client) := by
  rw [← awaitFrom_eq h.on, Client.await, h.on, h.cut]
  rfl

theorem Alone.look (h : e.Alone) : e.look.2.Alone ∧ e.look.2.service = e.service := by
  rcases e.look_cases h.on with same | ⟨m, inbox, -, same⟩
  · rw [same]
    exact ⟨h, rfl⟩
  · rw [same]
    refine ⟨⟨?_, h.idle, h.empty, h.cut⟩, rfl⟩
    rw [Client.On, Client.inbox, Client.stream_accept]
    rfl

/-- A wait is so many turns. -/
theorem Alone.wait (h : e.Alone) (timeout n : Nat) : ∃ k, (Exchange.wait timeout n e).2 = e.run (List.replicate k .look) ∧
    (Exchange.wait timeout n e).2.Alone ∧ (Exchange.wait timeout n e).2.service = e.service := by
  induction n generalizing e with
  | zero => exact ⟨0, rfl, h, rfl⟩
  | succ n ih =>
    obtain ⟨halone, hservice⟩ := h.look
    have hstep : e.step .look = e.look.2 := rfl
    rw [Exchange.wait]
    rcases hlook : e.look with ⟨_ | result, f⟩
    · rw [hlook] at halone hservice hstep
      obtain ⟨k, hrun, hrest, hsame⟩ := ih halone
      refine ⟨k + 1, ?_, hrest, hsame.trans hservice⟩
      rw [List.replicate_succ, run, List.foldl_cons, hstep]
      exact hrun
    · rw [hlook] at halone hservice hstep
      exact ⟨1, hstep.symm, halone, hservice⟩

/-! ### Moves -/

def callAction : Client.Call → Action
  | .startSending => .startSending
  | .updateElectionId id => .updateElectionId id
  | .modify batch => .modify batch

theorem step_callAction (e : Exchange) (a : Client.Call) : e.step (callAction a) = (e.call a).2 := by
  cases a <;> rfl

theorem run_append (e : Exchange) (actions more : List Action) : e.run (actions ++ more) = (e.run actions).run more :=
  List.foldl_append

theorem Alone.exists_run_move (h : e.Alone) (m : Client.Move) : ∃ actions, (e.run actions).Alone ∧
    e.client.move e.service.responder m = ((e.run actions).client, (e.run actions).service.responder) := by
  cases m with
  | configure connection => exact ⟨[.configure connection], h.noting rfl, rfl⟩
  | call a =>
    have hrun : e.run (callAction a :: (serving (e.call a).2.session ++ [.cut])) = (e.call a).2.serve.step .cut := by
      rw [run, List.foldl_cons, step_callAction, List.foldl_append]
      rfl
    refine ⟨_, hrun ▸ h.call a, ?_⟩
    rw [Client.move, perform_eq h, hrun]
    rfl
  | wait timeout =>
    obtain ⟨k, hrun, halone, hservice⟩ := h.wait timeout (e.client.inbox.length + 1)
    refine ⟨List.replicate k .look, hrun ▸ halone, ?_⟩
    rw [Client.move, await_eq h, ← hrun, hservice]

theorem Alone.exists_run_moves (h : e.Alone) (ms : List Client.Move) : ∃ actions, (e.run actions).Alone ∧
    e.client.moves e.service.responder ms = ((e.run actions).client, (e.run actions).service.responder) := by
  induction ms generalizing e with
  | nil => exact ⟨[], h, rfl⟩
  | cons m ms ih =>
    obtain ⟨actions, halone, hmove⟩ := h.exists_run_move m
    obtain ⟨more, hrest, hmoves⟩ := ih halone
    refine ⟨actions ++ more, ?_, ?_⟩
    · rw [run_append]
      exact hrest
    · rw [Client.moves, hmove, run_append]
      exact hmoves

/-- All that a client does on a device that it has to itself is a run of an exchange. -/
theorem exists_run_of_start {h : Chronicle} (stub : c.connection.check = .ok .device) (idle : c.stream = none)
    (ms : List Client.Move) : ∃ actions, ((start h c).run actions).Alone ∧
      (c.start h.responder).2.1.moves (c.start h.responder).2.2 ms =
        (((start h c).run actions).client, ((start h c).run actions).service.responder) := by
  rw [start_eq stub idle]
  exact (start_alone h c).exists_run_moves ms

end Exchange

end RouteProgramming
