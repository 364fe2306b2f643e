import RouteProgramming.Proofs.Responder.Election
import RouteProgramming.Proofs.Responder.Rounds
import RouteProgramming.Proofs.Rib.Hardware

/-! What a session is told while its client takes responses. The answer to a
request is put together from what each stage has to say about it: the outcome of
the negotiation, the primary id, the acknowledgments, and a last message if one
of the first two stages turns it down. A session is told the answers of its
rounds and nothing else; after a round that is turned down there is no other. -/

namespace RouteProgramming

/-- Why something is turned down, if it is. -/
def Refusal.of? {α : Type} : Except Refusal α → Option Refusal
  | .ok _ => none
  | .error e => some e

theorem Refusal.of?_eq_none_iff {α : Type} {x : Except Refusal α} : of? x = none ↔ ∃ a, x = .ok a := by
  cases x <;> simp [of?]

/-- The last message of a session that ends for a reason. -/
def farewell (e? : Option Refusal) : List ModifyResponse := e?.toList.map fun e => { error := some e.message }

/-! ### The answer to a request -/

namespace Service.Round

/-- The first request of a session settles its parameters, the given ones or the default ones; any other must not
give any. -/
def settlement (t : Round) (client : ClientId) (first : Bool) : Except Refusal Unit :=
  if first then (t.taken.negotiate client (t.request.params.getD {})).map fun _ => ()
  else if t.request.params.isSome then .error .lateParameters
  else .ok ()

/-- The primary id, if a request with an election id has reached the second stage. -/
def presentation (t : Round) (client : ClientId) : Except Refusal (Option ElectionId) :=
  match t.electing, t.request.electionId with
  | some r, some id => (r.present client id).map (some ·.1)
  | _, _ => .ok none

/-- Why the request has been turned down. -/
def refusal? (t : Round) (client : ClientId) (first : Bool) : Option Refusal :=
  Refusal.of? (t.settlement client first) <|> Refusal.of? (t.presentation client)

def paramsAnswer (t : Round) (client : ClientId) (first : Bool) : List ModifyResponse :=
  if first ∧ t.request.params.isSome then
    match t.settlement client first with
    | .ok () => [{ paramsResult := some .ok }]
    | .error e => [{ paramsResult := some (.error e.message) }]
  else []

def electionAnswer (t : Round) (client : ClientId) : List ModifyResponse :=
  match t.presentation client with
  | .ok (some primary) => [{ electionId := some primary }]
  | _ => []

def batchAnswer (t : Round) (client : ClientId) : List ModifyResponse :=
  match t.programming, t.request.operations with
  | some r, o :: os => [{ results := (r.program client (o :: os)).1 }]
  | _, _ => []

def answer (t : Round) (client : ClientId) (first : Bool) : List ModifyResponse :=
  t.paramsAnswer client first ++ t.electionAnswer client ++ t.batchAnswer client ++ farewell (t.refusal? client first)

end Service.Round

namespace Responder

open Service

variable {r : Responder} {client : ClientId} {p : Progress} {settled : Bool}

/-! ### The stages of a session that takes responses -/

/-- The session is open and takes responses; whether it has settled its parameters is known. -/
def Attends (r : Responder) (client : ClientId) (settled : Bool) : Prop :=
  ∃ session, r.sessions.get? client = some session ∧ session.listening ∧ session.params.isSome = settled

theorem Attends.hears (ha : r.Attends client settled) : r.hears client := by
  obtain ⟨session, hsession, hlistening, -⟩ := ha
  rw [Responder.hears, hsession]
  exact hlistening

theorem Attends.congr {s : Responder} (ha : r.Attends client settled)
    (same : s.sessions.get? client = r.sessions.get? client) : s.Attends client settled := by
  obtain ⟨session, hsession, hrest⟩ := ha
  exact ⟨session, same.trans hsession, hrest⟩

theorem Attends.updateSession {f : Session → Session} {b : Bool} (ha : r.Attends client settled)
    (listening : ∀ session, (f session).listening = session.listening)
    (params : ∀ session, session.params.isSome = settled → (f session).params.isSome = b) :
    (r.updateSession client f).Attends client b := by
  obtain ⟨session, hsession, hlistening, hsettled⟩ := ha
  refine ⟨f session, ?_, (listening session).trans hlistening, params session hsettled⟩
  rw [get?_updateSession, if_pos rfl, hsession]
  rfl

theorem respond_of_hears (hears : r.hears client) (response : ModifyResponse) :
    r.respond client response = { state := r, responses := [response] } := if_pos hears

/-- What a stage says and why it fails, if it does; after it the client still takes responses. -/
structure Staged (p : Progress) (client : ClientId) (said : List ModifyResponse) (refusal? : Option Refusal) :
    Prop where
  responses : p.responses = said
  refusal : p.refusal = refusal?
  hears : p.state.hears client
  attends : p.refusal = none → p.state.Attends client true

theorem staged_settle (ha : r.Attends client settled) (request : ModifyRequest) :
    Staged (r.settle client request.params) client (Round.paramsAnswer { request, taken := r } client !settled)
      (Refusal.of? (Round.settlement { request, taken := r } client !settled)) := by
  have hears := ha.hears
  have hfresh : ((r.sessions.get? client).bind (·.params)).isNone = !settled := by
    obtain ⟨session, hsession, -, hsettled⟩ := ha
    rw [hsession, Option.bind_some, ← hsettled, Option.not_isSome]
  unfold settle
  dsimp only
  rw [hfresh, Round.paramsAnswer, Round.settlement]
  cases settled with
  | true =>
    cases request.params with
    | some params => exact ⟨rfl, rfl, hears, fun h => absurd h (Option.some_ne_none _)⟩
    | none => exact ⟨rfl, rfl, hears, fun _ => ha⟩
  | false =>
    have hagreed {params : Parameters} {s : Responder} (agreed : r.negotiate client params = .ok s) :
        s.Attends client true := by
      rw [(negotiate_ok agreed).1]
      exact ha.updateSession (fun _ => rfl) fun _ _ => rfl
    cases request.params with
    | some params =>
      simp only [Bool.not_false, Option.isSome_some, and_self, if_true, Option.getD_some]
      cases hparams : r.negotiate client params with
      | ok s =>
        have hattends := hagreed hparams
        dsimp only
        rw [respond_of_hears hattends.hears]
        exact ⟨rfl, rfl, hattends.hears, fun _ => hattends⟩
      | error e =>
        dsimp only
        rw [respond_of_hears hears]
        exact ⟨rfl, rfl, hears, fun h => absurd h (Option.some_ne_none _)⟩
    | none =>
      simp only [Bool.not_false, if_true, Option.getD_none]
      cases hparams : r.negotiate client {} with
      | ok s =>
        have hattends := hagreed hparams
        exact ⟨rfl, rfl, hattends.hears, fun _ => hattends⟩
      | error e => exact ⟨rfl, rfl, hears, fun h => absurd h (Option.some_ne_none _)⟩

theorem staged_elect (ha : r.Attends client true) (t : Round) (electing : t.electing = some r) :
    Staged (r.elect client t.request.electionId) client (t.electionAnswer client)
      (Refusal.of? (t.presentation client)) := by
  rw [Round.electionAnswer, Round.presentation, electing]
  cases t.request.electionId with
  | none => exact ⟨rfl, rfl, ha.hears, fun _ => ha⟩
  | some id =>
    rw [elect]
    dsimp only
    cases hid : r.present client id with
    | ok accepted =>
      obtain ⟨primary, s⟩ := accepted
      have hattends : s.Attends client true := by
        have hsession := ha.updateSession (f := ({ · with electionId := some id })) (fun _ => rfl)
          fun _ hparams => hparams
        rw [(present_ok hid).2.2.2]
        exact hsession
      dsimp only
      rw [respond_of_hears hattends.hears]
      exact ⟨rfl, rfl, hattends.hears, fun _ => hattends⟩
    | error e => exact ⟨rfl, rfl, ha.hears, fun h => absurd h (Option.some_ne_none _)⟩

theorem staged_runBatch (ha : r.Attends client true) (t : Round) (programming : t.programming = some r) :
    Staged (r.runBatch client t.request.operations) client (t.batchAnswer client) none := by
  rw [Round.batchAnswer, programming]
  cases t.request.operations with
  | nil => exact ⟨rfl, rfl, ha.hears, fun _ => ha⟩
  | cons o os =>
    have hattends : (r.program client (o :: os)).2.Attends client true :=
      Attends.updateSession (ha.congr rfl) (fun _ => rfl) fun _ hparams => hparams
    rw [runBatch]
    · dsimp only
      rw [respond_of_hears hattends.hears]
      exact ⟨rfl, rfl, hattends.hears, fun _ => hattends⟩
    · exact List.cons_ne_nil _ _

end Responder

namespace Service

open Responder

variable {s : Service} {client : ClientId} {v : Event} {ts older : List Round} {t : Round} {p : Progress}

/-! ### What a session is told -/

/-- The responses to an event that are for the session. -/
def said (s : Service) (client : ClientId) (v : Event) : List ModifyResponse :=
  if s.session? v = some client then (s.step v).1 else []

/-- All that a session is told, in order. -/
def heard (s : Service) (client : ClientId) : List Event → List ModifyResponse
  | [] => []
  | v :: vs => s.said client v ++ (s.step v).2.heard client vs

theorem heard_append (s : Service) (client : ClientId) (es fs : List Event) :
    s.heard client (es ++ fs) = s.heard client es ++ (s.run es).heard client fs := by
  induction es generalizing s with
  | nil => rfl
  | cons v es ih => rw [List.cons_append, heard, ih, heard, List.append_assoc]; rfl

/-- The answers to the rounds of a session. -/
def answers (client : ClientId) : List Round → List ModifyResponse
  | [] => []
  | t :: older => answers client older ++ t.answer client older.isEmpty

/-- All rounds have gone through all stages. -/
inductive Served (client : ClientId) : List Round → Prop
  | nil : Served client []
  | cons {t : Round} {older : List Round} (earlier : Served client older)
    (accepted : t.refusal? client older.isEmpty = none) (elected : t.electing.isSome)
    (programmed : t.programming.isSome) : Served client (t :: older)

/-- Where a session stands with its rounds. -/
inductive Standing (s : Service) (client : ClientId) : List Round → Prop
  | absent {ts : List Round} (gone : s.responder.sessions.get? client = none) (idle : s.duty client = .listen)
    (past : ts ≠ [] → client < s.responder.nextClient) (served : Served client ts) : Standing s client ts
  | waiting {ts : List Round} (attends : s.responder.Attends client !ts.isEmpty) (idle : s.duty client = .listen)
    (served : Served client ts) : Standing s client ts
  | electing {t : Round} {older : List Round} (attends : s.responder.Attends client true)
    (turn : s.duty client = .elect t.request.electionId t.request.operations)
    (settled : t.settlement client older.isEmpty = .ok ()) (unelected : t.electing = none)
    (unprogrammed : t.programming = none) (served : Served client older) : Standing s client (t :: older)
  | programming {t : Round} {older : List Round} (attends : s.responder.Attends client true)
    (turn : s.duty client = .program t.request.operations) (accepted : t.refusal? client older.isEmpty = none)
    (elected : t.electing.isSome) (unprogrammed : t.programming = none) (served : Served client older) :
    Standing s client (t :: older)
  | refused {t : Round} {older : List Round} {e : Refusal} (finished : Finished s client)
    (refusal : t.refusal? client older.isEmpty = some e) (unprogrammed : t.programming = none)
    (served : Served client older) : Standing s client (t :: older)

/-- After an event a session stands as it should, and the event has told it what is new in its answers. -/
structure Follows (s : Service) (client : ClientId) (ts : List Round) (v : Event) : Prop where
  standing : Standing (s.step v).2 client (s.record client ts v)
  answers : answers client (s.record client ts v) = Service.answers client ts ++ s.said client v

theorem said_of_own (own : s.session? v = some client) : s.said client v = (s.step v).1 := if_pos own

/-- Nothing is said, and the session is where it was with its rounds. -/
theorem Follows.of_silent (same : s.record client ts v = ts) (silent : s.said client v = [])
    (standing : Standing (s.step v).2 client ts) : Follows s client ts v := by
  constructor
  · rw [same]
    exact standing
  · rw [same, silent, List.append_nil]

theorem Standing.of_unmoved {u : Service} (h : Standing s client ts) (hu : Unmoved s u client)
    (later : s.responder.nextClient ≤ u.responder.nextClient) : Standing u client ts := by
  cases h with
  | absent gone idle past served =>
    exact .absent (hu.session.trans gone) (hu.duty.trans idle)
      (fun hts => Nat.lt_of_lt_of_le (past hts) later) served
  | waiting attends idle served => exact .waiting (attends.congr hu.session) (hu.duty.trans idle) served
  | electing attends turn settled unelected unprogrammed served =>
    exact .electing (attends.congr hu.session) (hu.duty.trans turn) settled unelected unprogrammed served
  | programming attends turn accepted elected unprogrammed served =>
    exact .programming (attends.congr hu.session) (hu.duty.trans turn) accepted elected unprogrammed served
  | refused finished refusal unprogrammed served =>
    exact .refused (finished.of_unmoved hu later) refusal unprogrammed served

theorem follows_other (hs : s.Orderly) (h : Standing s client ts) (other : s.session? v ≠ some client) :
    Follows s client ts v :=
  .of_silent (record_of_other other) (if_neg other)
    (h.of_unmoved (step_unmoved other) (step_cases hs v).nextClient_le)

theorem past_of_attends {b : Bool} (hs : s.Orderly) (ha : s.responder.Attends client b) :
    client < s.responder.nextClient := by
  obtain ⟨session, hsession, -⟩ := ha
  exact hs.numbered client session hsession

/-! ### Between two requests -/

theorem follows_absent (own : s.session? v = some client) (gone : s.responder.sessions.get? client = none)
    (idle : s.duty client = .listen) (past : ts ≠ [] → client < s.responder.nextClient)
    (served : Served client ts) : Follows s client ts v := by
  have quiet : ∀ request, v = .request client request → ¬s.Ready client := by
    rintro request - ⟨hopen, -⟩
    rw [isOpen, Table.contains, gone] at hopen
    contradiction
  obtain ⟨hsilent, hidled⟩ := step_idled own (.inl idle) quiet
  refine .of_silent (record_of_idle ts (.inl idle) quiet) ((said_of_own own).trans hsilent) ?_
  generalize (s.step v).2 = u at hidled
  cases hidled with
  | connected new =>
    -- nobody has had the number of a new session before
    have hts : ts = [] := Classical.byContradiction fun hts => Nat.lt_irrefl _ (new ▸ past hts)
    subst hts
    refine .waiting ⟨{}, ?_, rfl, rfl⟩ idle served
    rw [new]
    exact Table.get?_insert_self ..
  | same => exact .absent gone idle past served
  | closed =>
    refine .absent (get?_close s client) (duty_close s client) (fun hts => ?_) served
    rw [close, disconnect_eq]
    exact past hts
  | deafened =>
    refine .absent ?_ idle past served
    rw [deafen, get?_updateSession, if_pos rfl, gone]
    rfl

theorem follows_quiet (hs : s.Orderly) (own : s.session? v = some client) (listening : v ≠ .deafen client)
    (quiet : ∀ request, v = .request client request → ¬s.Ready client)
    (attends : s.responder.Attends client !ts.isEmpty) (idle : s.duty client = .listen) (served : Served client ts) :
    Follows s client ts v := by
  have hpast := past_of_attends hs attends
  obtain ⟨hsilent, hidled⟩ := step_idled own (.inl idle) quiet
  refine .of_silent (record_of_idle ts (.inl idle) quiet) ((said_of_own own).trans hsilent) ?_
  generalize (s.step v).2 = u at hidled
  cases hidled with
  | connected new => exact absurd hpast (new ▸ Nat.lt_irrefl _)
  | same => exact .waiting attends idle served
  | closed =>
    refine .absent (get?_close s client) (duty_close s client) (fun _ => ?_) served
    rw [close, disconnect_eq]
    exact hpast
  | deafened => contradiction

/-! ### The stages of a request -/

theorem conclude_of_hears (hears : p.state.hears client) (next : Duty) :
    (s.conclude client p next).1 = p.responses ++ farewell p.refusal := by
  rw [conclude]
  cases p.refusal with
  | none => exact (List.append_nil _).symm
  | some e => simp only [hears, if_true]; rfl

theorem finished_conclude {e : Refusal} {next : Duty} (refusal : p.refusal = some e)
    (past : client < p.state.nextClient) : Finished (s.conclude client p next).2 client := by
  have hleave : (s.conclude client p next).2.duty client = .leave := by
    rw [duty_conclude, if_pos rfl, refusal]
    rfl
  refine ⟨?_, fun _ => hleave, .inr hleave⟩
  rw [responder_conclude]
  exact past

/-- A stage of the latest round. -/
theorem follows_stage {said : List ModifyResponse} {refusal? : Option Refusal} {next : Duty} (hs : s.Orderly)
    (staged : Staged p client said refusal?) (own : s.session? v = some client)
    (past : client < s.responder.nextClient) (stage : s.step v = s.conclude client p next)
    (recorded : s.record client ts v = t :: older)
    (told : answers client (t :: older) = answers client ts ++ (said ++ farewell refusal?))
    (goesOn : refusal? = none → ∀ u : Service, u.responder.Attends client true → u.duty client = next →
      Standing u client (t :: older))
    (ends : ∀ e, refusal? = some e → t.refusal? client older.isEmpty = some e ∧ t.programming = none)
    (served : Served client older) : Follows s client ts v := by
  constructor
  · rw [recorded, stage]
    cases hrefusal : refusal? with
    | none =>
      have hnone := staged.refusal.trans hrefusal
      refine goesOn hrefusal _ ?_ ?_
      · rw [responder_conclude]
        exact staged.attends hnone
      · rw [duty_conclude, if_pos rfl, hnone]
        rfl
    | some e =>
      obtain ⟨hsome, hunprogrammed⟩ := ends e hrefusal
      have hlater := Nat.lt_of_lt_of_le past (step_cases hs v).nextClient_le
      rw [stage, responder_conclude] at hlater
      exact .refused (finished_conclude (staged.refusal.trans hrefusal) hlater) hsome hunprogrammed served
  · rw [recorded, said_of_own own, stage, conclude_of_hears staged.hears, staged.responses, staged.refusal, told]

theorem follows_request {request : ModifyRequest} (hs : s.Orderly) (ready : s.Ready client)
    (attends : s.responder.Attends client !ts.isEmpty) (served : Served client ts) :
    Follows s client ts (.request client request) := by
  have hstage := staged_settle attends request
  rw [Bool.not_not] at hstage
  have hrecord : s.record client ts (.request client request) = { request, taken := s.responder } :: ts :=
    if_pos ⟨rfl, ready⟩
  refine follows_stage hs hstage rfl (past_of_attends hs attends) (step_of_ready ready) hrecord ?told ?goesOn ?ends
    served
  case told =>
    simp [answers, Round.answer, Round.refusal?, Round.electionAnswer, Round.batchAnswer, Round.presentation,
      Refusal.of?]
  case goesOn =>
    intro hnone u hattends hduty
    obtain ⟨⟨⟩, hsettled⟩ := Refusal.of?_eq_none_iff.1 hnone
    exact .electing hattends hduty hsettled rfl rfl served
  case ends =>
    intro e hsome
    refine ⟨?_, rfl⟩
    rw [Round.refusal?, hsome]
    rfl

theorem follows_elect (hs : s.Orderly) (attends : s.responder.Attends client true)
    (turn : s.duty client = .elect t.request.electionId t.request.operations)
    (settled : t.settlement client older.isEmpty = .ok ()) (unelected : t.electing = none)
    (unprogrammed : t.programming = none) (served : Served client older) :
    Follows s client (t :: older) (.proceed client) := by
  obtain ⟨request, taken, electing, programming⟩ := t
  obtain rfl : electing = none := unelected
  obtain rfl : programming = none := unprogrammed
  have hstage := staged_elect attends { request, taken, electing := some s.responder } rfl
  have hrecord : s.record client ({ request, taken } :: older) (.proceed client) =
      { request, taken, electing := some s.responder } :: older := by
    rw [record, if_pos rfl, turn, advance]
  have hstep : s.step (.proceed client) = s.conclude client (s.responder.elect client request.electionId)
      (.program request.operations) := by
    rw [step, turn]
  -- the first stage reads nothing that the second one records
  have hsettled : Round.settlement { request, taken, electing := some s.responder } client older.isEmpty = .ok () :=
    settled
  have hparams : Round.paramsAnswer { request, taken, electing := some s.responder } client older.isEmpty =
      Round.paramsAnswer { request, taken } client older.isEmpty := rfl
  refine follows_stage hs hstage rfl (past_of_attends hs attends) hstep hrecord ?told ?goesOn ?ends served
  case told =>
    rw [answers, answers, Round.answer, Round.answer, Round.refusal?, Round.refusal?, hsettled, settled, hparams]
    simp [Round.electionAnswer, Round.batchAnswer, Round.presentation, Refusal.of?, farewell]
  case goesOn =>
    intro hnone u hattends hduty
    refine .programming hattends hduty ?_ rfl rfl served
    rw [Round.refusal?, hsettled, hnone]
    rfl
  case ends =>
    intro e hsome
    refine ⟨?_, rfl⟩
    rw [Round.refusal?, hsettled, hsome]
    rfl

theorem follows_program (hs : s.Orderly) (attends : s.responder.Attends client true)
    (turn : s.duty client = .program t.request.operations) (accepted : t.refusal? client older.isEmpty = none)
    (elected : t.electing.isSome) (unprogrammed : t.programming = none) (served : Served client older) :
    Follows s client (t :: older) (.proceed client) := by
  obtain ⟨request, taken, electing, programming⟩ := t
  obtain rfl : programming = none := unprogrammed
  have hstage := staged_runBatch attends { request, taken, electing, programming := some s.responder } rfl
  have hrecord : s.record client ({ request, taken, electing } :: older) (.proceed client) =
      { request, taken, electing, programming := some s.responder } :: older := by
    rw [record, if_pos rfl, turn, advance]
  have hstep : s.step (.proceed client) = s.conclude client (s.responder.runBatch client request.operations)
      .listen := by
    rw [step, turn]
  -- neither do the first two stages read what the third one records
  have haccepted : Round.refusal? { request, taken, electing, programming := some s.responder } client
      older.isEmpty = none := accepted
  have hparams : Round.paramsAnswer { request, taken, electing, programming := some s.responder } client
      older.isEmpty = Round.paramsAnswer { request, taken, electing } client older.isEmpty := rfl
  have helection : Round.electionAnswer { request, taken, electing, programming := some s.responder } client =
      Round.electionAnswer { request, taken, electing } client := rfl
  refine follows_stage hs hstage rfl (past_of_attends hs attends) hstep hrecord ?told ?goesOn ?ends served
  case told =>
    rw [answers, answers, Round.answer, Round.answer, haccepted, accepted, hparams, helection]
    simp [Round.batchAnswer, farewell]
  case goesOn =>
    intro _ u hattends hduty
    exact .waiting hattends hduty (served.cons haccepted elected rfl)
  case ends =>
    intro e hsome
    contradiction

/-! ### From one event to the next -/

theorem follows_step (hs : s.Orderly) (h : Standing s client ts) (listening : v ≠ .deafen client) :
    Follows s client ts v := by
  by_cases own : s.session? v = some client
  case neg => exact follows_other hs h own
  have hbusy (attends : s.responder.Attends client true) (busy : s.duty client ≠ .listen)
      (turn : Follows s client ts (.proceed client)) : Follows s client ts v := by
    rcases step_of_busy own (past_of_attends hs attends) busy ts with rfl | rfl | ⟨hstep, hrecord⟩
    · exact turn
    · contradiction
    · refine .of_silent hrecord ?_ ?_
      · rw [said_of_own own, hstep]
      · rw [hstep]
        exact h
  cases h with
  | absent gone idle past served => exact follows_absent own gone idle past served
  | waiting attends idle served =>
    by_cases taken : ∃ request, v = .request client request ∧ s.Ready client
    · obtain ⟨request, rfl, ready⟩ := taken
      exact follows_request hs ready attends served
    · exact follows_quiet hs own listening (fun request hv ready => taken ⟨request, hv, ready⟩) attends idle served
  | electing attends turn settled unelected unprogrammed served =>
    exact hbusy attends (by simp [turn]) (follows_elect hs attends turn settled unelected unprogrammed served)
  | programming attends turn accepted elected unprogrammed served =>
    exact hbusy attends (by simp [turn]) (follows_program hs attends turn accepted elected unprogrammed served)
  | refused finished refusal unprogrammed served =>
    have hfinished := finished.step hs v
    refine .of_silent ?_ ?_ (.refused hfinished refusal unprogrammed served)
    · exact record_of_idle _ finished.idle fun _ _ => finished.quiet
    · rw [said_of_own own]
      exact (finished.step_idled own).1

theorem Standing.run (hs : s.Orderly) (h : Standing s client ts) {es : List Event}
    (listening : .deafen client ∉ es) : Standing (s.run es) client (s.rounds client ts es) ∧
      answers client (s.rounds client ts es) = answers client ts ++ s.heard client es := by
  induction es generalizing s ts with
  | nil => exact ⟨h, (List.append_nil _).symm⟩
  | cons v es ih =>
    have hfollows := follows_step hs h (v := v) fun hv => listening (hv ▸ List.mem_cons_self)
    obtain ⟨hstanding, hanswers⟩ := ih (hs.step v) hfollows.standing
      fun hmem => listening (List.mem_cons_of_mem v hmem)
    refine ⟨hstanding, ?_⟩
    rw [rounds, hanswers, hfollows.answers, heard, List.append_assoc]

/-! ### What a session does to the tables -/

/-- The responders that the rounds have programmed, the latest first. -/
def programmings (ts : List Round) : List Responder := ts.filterMap (·.programming)

/-- What an event of a session does to the tables: the latest round programs its operations, or no round does and the
tables stay as they are unless the session ends. -/
inductive Effect (s : Service) (client : ClientId) (ts : List Round) (v : Event) : Prop
  | programs {t : Round} {older : List Round} (latest : ts = t :: older) (before : t.programming = none)
    (after : s.record client ts v = { t with programming := some s.responder } :: older)
    (rib : (s.step v).2.responder.rib = (s.responder.program client t.request.operations).2.rib)
  | keeps (same : programmings (s.record client ts v) = programmings ts)
    (rib : (s.step v).2.responder.rib = s.responder.rib)
  | ends (same : programmings (s.record client ts v) = programmings ts) (closed : (s.step v).2 = s.close client)

theorem rib_runBatch (r : Responder) (client : ClientId) (operations : List Operation) :
    (r.runBatch client operations).state.rib = (r.program client operations).2.rib := by
  cases operations with
  | nil => rfl
  | cons => rw [Responder.runBatch, state_respond]; exact List.cons_ne_nil _ _

theorem programmings_record (ts : List Round)
    (idle : ∀ operations, v = .proceed client → s.duty client ≠ .program operations) :
    programmings (s.record client ts v) = programmings ts := by
  cases v with
  | request other request =>
    rw [record]
    split <;> rfl
  | proceed other =>
    rw [record]
    split
    case isTrue hown =>
      cases hduty : s.duty client with
      | program operations => exact absurd hduty (idle operations (congrArg Event.proceed hown))
      | listen | leave | elect => cases ts <;> rfl
    case isFalse => rfl
  | connect | hangUp | deafen | flush | plane => rfl

/-- A session changes the tables only by programming a batch or by ending. -/
theorem rib_step (own : s.session? v = some client)
    (idle : ∀ operations, v = .proceed client → s.duty client ≠ .program operations) :
    (s.step v).2.responder.rib = s.responder.rib ∨ (s.step v).2 = s.close client := by
  cases v with
  | connect | deafen => exact .inl rfl
  | request other request =>
    rw [step]
    split
    · rw [responder_conclude]
      cases s.responder.settle_cases other request.params with
      | refused same | before same => rw [same]; exact .inl rfl
      | now fresh agreed => rw [(negotiate_ok agreed).1]; exact .inl rfl
    · exact .inl rfl
  | proceed other =>
    obtain rfl := Option.some.inj own
    rw [step]
    cases hduty : s.duty other with
    | listen => exact .inl rfl
    | leave => exact .inr rfl
    | program operations => exact absurd hduty (idle operations rfl)
    | elect id? operations =>
      dsimp only
      rw [responder_conclude]
      rcases s.responder.elect_cases other id? with ⟨same, -⟩ | ⟨id, primary, -, accepted⟩
      · rw [same]
        exact .inl rfl
      · rw [(present_ok accepted).2.2.2]
        exact .inl rfl
  | hangUp other =>
    obtain rfl := Option.some.inj own
    rw [step]
    dsimp only
    split
    · exact .inr rfl
    · exact .inl rfl
  | flush | plane => contradiction

theorem Standing.effect (h : Standing s client ts) (own : s.session? v = some client) : Effect s client ts v := by
  by_cases turn : ∃ operations, v = .proceed client ∧ s.duty client = .program operations
  case neg =>
    have idle : ∀ operations, v = .proceed client → s.duty client ≠ .program operations :=
      fun operations hv hduty => turn ⟨operations, hv, hduty⟩
    have hsame := programmings_record ts idle
    rcases rib_step own idle with hrib | hclosed
    · exact .keeps hsame hrib
    · exact .ends hsame hclosed
  case pos =>
    obtain ⟨operations, rfl, hduty⟩ := turn
    cases h with
    | programming attends turn accepted elected unprogrammed served =>
      refine .programs rfl unprogrammed ?_ ?_
      · rw [record, if_pos rfl, turn, advance]
      · rw [step, turn, responder_conclude, rib_runBatch]
    | absent gone idle | waiting attends idle => rw [idle] at hduty; contradiction
    | electing attends turn => rw [turn] at hduty; contradiction
    | refused finished =>
      rcases finished.idle with hidle | hidle
      all_goals rw [hidle] at hduty; contradiction

/-! ### After a request that is turned down -/

theorem Standing.refused_cases {e : Refusal} (h : Standing s client (t :: older))
    (refusal : t.refusal? client older.isEmpty = some e) : Finished s client ∧ t.programming = none := by
  cases h with
  | refused finished _ unprogrammed => exact ⟨finished, unprogrammed⟩
  | absent gone idle past served | waiting attends idle served =>
    cases served with
    | cons earlier accepted => rw [accepted] at refusal; contradiction
  | electing attends turn settled unelected =>
    rw [Round.refusal?, settled, Round.presentation, unelected] at refusal
    contradiction
  | programming attends turn accepted => rw [accepted] at refusal; contradiction

theorem Standing.earlier (h : Standing s client (t :: older)) : Served client older := by
  cases h with
  | absent gone idle past served | waiting attends idle served =>
    cases served with
    | cons earlier => exact earlier
  | electing _ _ _ _ _ served | programming _ _ _ _ _ served | refused _ _ _ served => exact served

theorem Finished.silent (hs : s.Orderly) (hf : Finished s client) (ts : List Round) (es : List Event) :
    s.heard client es = [] ∧ s.rounds client ts es = ts := by
  induction es generalizing s with
  | nil => exact ⟨rfl, rfl⟩
  | cons v es ih =>
    obtain ⟨hheard, hrounds⟩ := ih (hs.step v) (hf.step hs v)
    constructor
    · rw [heard, hheard, List.append_nil, said]
      split
      case isTrue own => exact (hf.step_idled own).1
      case isFalse => rfl
    · rw [rounds, record_of_idle ts hf.idle fun _ _ => hf.quiet, hrounds]

end Service

namespace Chronicle

open Service

variable {h : Chronicle} {client : ClientId}

/-- All that a session has been told, in order. -/
def heard (h : Chronicle) (client : ClientId) : List ModifyResponse := h.start.heard client h.events

theorem standing (listening : .deafen client ∉ h.events) : Standing h.service client (h.rounds client) ∧
    h.heard client = answers client (h.rounds client) := by
  have hstart : Standing h.start client [] := .absent rfl rfl (fun hts => absurd rfl hts) .nil
  obtain ⟨hstanding, hanswers⟩ := hstart.run h.start_orderly listening
  exact ⟨hstanding, hanswers.symm⟩

theorem service_append (h : Chronicle) (fs : List Event) :
    (h.before (h.events ++ fs)).service = h.service.run fs := run_append ..

/-- A session that is finished is told nothing more and takes no request, and it is gone after its next turn. -/
theorem finished_append (hf : Finished h.service client) (fs : List Event) :
    (h.before (h.events ++ fs)).heard client = h.heard client ∧
      (h.before (h.events ++ fs)).rounds client = h.rounds client ∧
      (∀ request, (h.before (h.events ++ fs)).service.step (.request client request) =
        ([], (h.before (h.events ++ fs)).service)) ∧
      (.proceed client ∈ fs → (h.before (h.events ++ fs)).responder.sessions.get? client = none) := by
  obtain ⟨hsilent, hsame⟩ := hf.silent h.orderly (h.rounds client) fs
  refine ⟨?_, ?_, fun request => ?_, fun hturn => ?_⟩
  · have happend : (h.before (h.events ++ fs)).heard client = h.heard client ++ h.service.heard client fs :=
      heard_append ..
    rw [happend, hsilent, List.append_nil]
  · have happend : (h.before (h.events ++ fs)).rounds client = h.service.rounds client (h.rounds client) fs :=
      rounds_append ..
    rw [happend, hsame]
  · rw [service_append]
    exact if_neg (hf.run h.orderly fs).quiet
  · rw [responder, service_append]
    exact hf.get?_run h.orderly hturn

/-- A session whose client takes responses is told exactly the answers to its requests, with one acknowledgment for each
operation. It has been served in full when it has nothing to do, as is the case after three turns; and a request that
is turned down programs nothing and is the last one that has an effect or an answer. -/
theorem responses_exact (h : Chronicle) (client : ClientId) (listening : .deafen client ∉ h.events) :
    h.heard client = answers client (h.rounds client) ∧
    (∀ t ∈ h.rounds client, ∀ r, t.programming = some r →
      (r.program client t.request.operations).1.map (fun a => (a.id, a.op, a.key)) =
        t.request.operations.map (fun o => (o.id, o.op, o.key))) ∧
    (∀ es v fs, h.events = es ++ v :: fs → (h.before es).service.session? v = some client →
      Effect (h.before es).service client ((h.before es).rounds client) v) ∧
    (h.service.duty client = .listen → Served client (h.rounds client) ∨
      ∃ t older e, h.rounds client = t :: older ∧ t.refusal? client older.isEmpty = some e) ∧
    (∀ fs, (∀ request, .request client request ∉ fs) → 3 ≤ fs.countP (·.isTurn client) →
      (h.before (h.events ++ fs)).service.duty client = .listen) ∧
    (∀ t older, h.rounds client = t :: older → Served client older ∧
      ∀ e, t.refusal? client older.isEmpty = some e → t.programming = none ∧
        ∀ fs, (h.before (h.events ++ fs)).heard client = h.heard client ∧
          (h.before (h.events ++ fs)).rounds client = h.rounds client ∧
          (∀ request, (h.before (h.events ++ fs)).service.step (.request client request) =
            ([], (h.before (h.events ++ fs)).service)) ∧
          (.proceed client ∈ fs → (h.before (h.events ++ fs)).responder.sessions.get? client = none)) := by
  obtain ⟨hstanding, hheard⟩ := standing listening
  refine ⟨hheard, ?_, ?_, ?_, ?_, ?_⟩
  · intro t _ r _
    exact r.rib.map_about_applyBatch _ _
  · intro es v fs hevents own
    have hearlier : .deafen client ∉ (h.before es).events := fun hmem =>
      listening (hevents ▸ List.mem_append_left _ hmem)
    exact (standing hearlier).1.effect own
  · intro hidle
    generalize h.rounds client = ts at hstanding ⊢
    cases hstanding with
    | absent gone idle past served | waiting attends idle served => exact .inl served
    | electing attends turn | programming attends turn => rw [turn] at hidle; contradiction
    | refused finished refusal => exact .inr ⟨_, _, _, rfl, refusal⟩
  · intro fs unasked hturns
    rw [service_append]
    refine duty_run_of_turns (fun ds request gs hfs _ => ?_) (Nat.le_trans (turnsLeft_le _) hturns)
    exact unasked request (hfs ▸ List.mem_append_right _ List.mem_cons_self)
  · intro t older hrounds
    rw [hrounds] at hstanding
    refine ⟨hstanding.earlier, fun e refusal => ?_⟩
    obtain ⟨hfinished, hunprogrammed⟩ := hstanding.refused_cases refusal
    exact ⟨hunprogrammed, finished_append hfinished⟩

/-! ### An example -/

/-- A client is served once, and then repeats its parameters. -/
def relapse : Chronicle where
  config := {}
  events :=
    .connect ::
      (.request 1 { params := some elective, electionId := some ⟨0, 5⟩, operations := [writeNextHop none] } ::
        Service.turns 1 2) ++
      [.request 1 { params := some elective, operations := [writeNextHop none] }]

/-- The client is told why, and nothing else ever after; the session is gone after its next turn. -/
theorem responses_exact_relapse :
    .deafen 1 ∉ relapse.events ∧
    relapse.heard 1 =
      [{ paramsResult := some .ok }, { electionId := some ⟨0, 5⟩ },
        { results := [{ id := 1, op := .add, key := .nextHop 42, outcome := .installedInRib }] },
        { error := some "Session parameters must be sent in the first request" }] ∧
    relapse.heard 1 = answers 1 (relapse.rounds 1) ∧
    ∃ t older, relapse.rounds 1 = t :: older ∧ t.refusal? 1 older.isEmpty = some .lateParameters ∧
      t.programming = none ∧ ∀ fs, (relapse.before (relapse.events ++ fs)).heard 1 = relapse.heard 1 ∧
        (.proceed 1 ∈ fs → (relapse.before (relapse.events ++ fs)).responder.sessions.get? 1 = none) := by
  have hlistening : .deafen 1 ∉ relapse.events := by simp [relapse, Service.turns]
  have hexact := relapse.responses_exact 1 hlistening
  obtain ⟨t, older, hrounds⟩ : ∃ t older, relapse.rounds 1 = t :: older := ⟨_, _, rfl⟩
  have hrefusal : t.refusal? 1 older.isEmpty = some .lateParameters := by
    obtain ⟨rfl, rfl⟩ := List.cons.inj hrounds
    rfl
  obtain ⟨hunprogrammed, hafter⟩ := (hexact.2.2.2.2.2 t older hrounds).2 _ hrefusal
  refine ⟨hlistening, by decide +kernel, hexact.1, t, older, hrounds, hrefusal, hunprogrammed, fun fs => ?_⟩
  obtain ⟨hheard, -, -, hgone⟩ := hafter fs
  exact ⟨hheard, hgone⟩

end Chronicle

end RouteProgramming
