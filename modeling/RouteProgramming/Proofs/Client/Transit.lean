import RouteProgramming.Proofs.Client.Exchange
import RouteProgramming.Proofs.Responder.Answers

/-! Nothing is lost on the way. At any moment the requests that the session has
taken, followed by those that are under way, are the requests sent; and the
responses that the client has looked at, followed by those that are under way,
are the answers of the session. So the client has seen a first part of the
answers to a first part of what it has asked. -/

namespace RouteProgramming

namespace Exchange

open Service Responder

variable {e : Exchange} {h : Chronicle} {c : Client}

/-- The operations of all requests sent, oldest first. -/
def submitted (e : Exchange) : List Operation := e.sent.flatMap (·.operations)

/-- The election ids of all requests sent, oldest first. -/
def presented (e : Exchange) : List ElectionId := e.sent.filterMap (·.electionId)

structure InTransit (e : Exchange) : Prop where
  orderly : e.service.Orderly
  standing : Standing e.service e.session e.rounds
  on : e.client.On e.session
  requests : e.rounds.reverse.map (·.request) ++ e.outbox = e.sent
  responses : e.received ++ e.client.inbox = answers e.session e.rounds

theorem start_inTransit (h : Chronicle) (c : Client) : InTransit (start h c) :=
  ⟨h.orderly.step .connect, h.standing_connect, rfl, rfl, rfl⟩

/-! ### The client's calls -/

/-- The exchange after a request has gone off. -/
def posted (e : Exchange) (request : ModifyRequest) : Exchange :=
  { e with outbox := e.outbox ++ [request], sent := e.sent ++ [request] }

theorem submitted_posted (e : Exchange) (request : ModifyRequest) :
    (e.posted request).submitted = e.submitted ++ request.operations := by
  rw [submitted, posted, List.flatMap_append, List.flatMap_singleton, submitted]

theorem filterMap_posted {α : Type} (f : ModifyRequest → Option α) (e : Exchange) (request : ModifyRequest) :
    (e.posted request).sent.filterMap f = e.sent.filterMap f ++ (f request).toList := by
  rw [posted, List.filterMap_append]
  cases h : f request <;> simp [h]

theorem presented_posted (e : Exchange) (request : ModifyRequest) :
    (e.posted request).presented = e.presented ++ request.electionId.toList := filterMap_posted ..

theorem post_cases (e : Exchange) (request : ModifyRequest) :
    (e.post request).2 = e ∨ (e.post request).2 = e.posted request := by
  rw [post]
  split
  · exact .inl rfl
  · exact .inr rfl

/-- A batch with an entry that cannot be built is not numbered, one that is not sent has its numbers all the same. -/
theorem modify_cases (e : Exchange) (batch : List (OperationType × EntryDraft)) : (e.modify batch).2 = e ∨
    ∃ built, Client.buildAll batch = .ok built ∧
      ((e.modify batch).2 = { e with client := (e.client.number built).2 } ∨
        (e.modify batch).2 = { e.posted { operations := (e.client.number built).1 } with
          client := (e.client.number built).2.owed ((e.client.number built).1.map (·.id)) }) := by
  rw [modify]
  cases Client.buildAll batch with
  | error cause => exact .inl rfl
  | ok built =>
    refine .inr ⟨built, rfl, ?_⟩
    dsimp only
    rw [post]
    by_cases hcut : e.cut
    · rw [if_pos hcut]
      exact .inl rfl
    · rw [if_neg hcut]
      exact .inr rfl

/-- A turn of a wait changes nothing, or the oldest response is looked at. -/
theorem look_cases (on : e.client.On e.session) : e.look.2 = e ∨
    ∃ m inbox, e.client.inbox = m :: inbox ∧ e.look.2 =
      { e with
        client := (Client.accept { e.client with stream := some ⟨.device e.session, inbox⟩ } m).2
        received := e.received ++ [m] } := by
  rw [look]
  split
  · exact .inl rfl
  · cases hinbox : e.client.inbox with
    | nil =>
      rw [Client.On, hinbox] at on
      rw [Client.take?, on]
      exact .inl rfl
    | cons m inbox =>
      rw [Client.On, hinbox] at on
      rw [Client.take?, on]
      refine .inr ⟨m, inbox, rfl, ?_⟩
      dsimp only
      rcases Client.accept { e.client with stream := some ⟨.device e.session, inbox⟩ } m with ⟨_ | _, client⟩
      · rfl
      · rfl

/-- Nothing about the client matters here but its line. -/
theorem InTransit.withClient (hin : InTransit e) {client : Client} (stream : client.stream = e.client.stream) :
    InTransit { e with client } := by
  have hinbox : client.inbox = e.client.inbox := by rw [Client.inbox, stream, Client.inbox]
  refine ⟨hin.orderly, hin.standing, ?_, hin.requests, ?_⟩
  · rw [Client.On, stream, hinbox]
    exact hin.on
  · rw [hinbox]
    exact hin.responses

theorem InTransit.posted (hin : InTransit e) (request : ModifyRequest) : InTransit (e.posted request) := by
  refine ⟨hin.orderly, hin.standing, hin.on, ?_, hin.responses⟩
  rw [Exchange.posted, ← List.append_assoc, hin.requests]

theorem InTransit.post (hin : InTransit e) (request : ModifyRequest) : InTransit (e.post request).2 := by
  rcases e.post_cases request with same | same
  · rwa [same]
  · rw [same]
    exact hin.posted request

theorem InTransit.modify (hin : InTransit e) (batch : List (OperationType × EntryDraft)) :
    InTransit (e.modify batch).2 := by
  rcases e.modify_cases batch with same | ⟨built, -, same | same⟩
  · rwa [same]
  · rw [same]
    exact hin.withClient rfl
  · rw [same]
    exact (hin.posted _).withClient rfl

theorem InTransit.look (hin : InTransit e) : InTransit e.look.2 := by
  rcases e.look_cases hin.on with same | ⟨m, inbox, hinbox, same⟩
  · rwa [same]
  · have hstream := Client.stream_accept { e.client with stream := some ⟨.device e.session, inbox⟩ } m
    rw [same]
    generalize Client.accept { e.client with stream := some ⟨.device e.session, inbox⟩ } m = accepted at hstream
    have hrest : accepted.2.inbox = inbox := by rw [Client.inbox, hstream]; rfl
    refine ⟨hin.orderly, hin.standing, ?_, hin.requests, ?_⟩
    · rw [Client.On, hstream, hrest]
    · rw [hrest, ← hin.responses, hinbox, List.append_assoc, List.singleton_append]

/-! ### The device -/

theorem requests_advance (r : Responder) (d : Duty) (ts : List Round) :
    (advance r d ts).map (·.request) = ts.map (·.request) := by
  cases ts with
  | nil => cases d <;> rfl
  | cons t older => cases d <;> rfl

/-- A session takes no request but those that the client has sent it. -/
theorem requests_record {v : Event} (foreign : e.isOwn v = false) :
    (e.service.record e.session e.rounds v).map (·.request) = e.rounds.map (·.request) := by
  cases v with
  | request other request =>
    have hnot : ¬(other = e.session ∧ e.service.Ready e.session) := fun h => of_decide_eq_false foreign h.1
    rw [record, if_neg hnot]
  | proceed other =>
    rw [record]
    split
    · exact requests_advance ..
    · rfl
  | connect | hangUp | deafen | flush | plane => rfl

/-- An event takes some requests, or none, off the line. -/
theorem InTransit.happen {v : Event} {taken outbox : List ModifyRequest} (hin : InTransit e)
    (listening : v ≠ .deafen e.session) (line : e.outbox = taken ++ outbox)
    (requests : (e.happen v).rounds.reverse.map (·.request) = e.rounds.reverse.map (·.request) ++ taken) :
    InTransit { e.happen v with outbox } := by
  have hfollows := follows_step hin.orderly hin.standing listening
  refine ⟨hin.orderly.step v, hfollows.standing, hin.on.hear _, ?_, ?_⟩
  · dsimp only
    rw [requests, List.append_assoc, ← line]
    exact hin.requests
  · refine Eq.trans ?_ hfollows.answers.symm
    rw [← hin.responses, List.append_assoc]
    exact congrArg (e.received ++ ·) (Client.inbox_hear hin.on _)

theorem InTransit.deliver (hin : InTransit e) : InTransit e.deliver := by
  rw [Exchange.deliver]
  cases houtbox : e.outbox with
  | nil => exact hin
  | cons request outbox =>
    dsimp only
    split
    case isTrue ready =>
      have hline : e.outbox = [request] ++ outbox := houtbox
      refine hin.happen (Event.noConfusion ·) hline ?_
      rw [Exchange.happen]
      dsimp only
      rw [record, if_pos ⟨rfl, ready⟩, List.reverse_cons, List.map_append]
      rfl
    case isFalse => exact hin

theorem InTransit.step (hin : InTransit e) (a : Action) : InTransit (e.step a) := by
  cases a with
  | configure connection => exact hin.withClient rfl
  | startSending =>
    have hintroduced : InTransit { e with client := e.client.introduced } := hin.withClient rfl
    exact hintroduced.post _
  | updateElectionId id =>
    have hpresenting : InTransit { e with client := e.client.presenting id } := hin.withClient rfl
    exact hpresenting.post _
  | modify batch => exact hin.modify batch
  | look => exact hin.look
  | deliver => exact hin.deliver
  | happen v =>
    rw [Exchange.step]
    split
    case isTrue => exact hin
    case isFalse foreign =>
      have hforeign : e.isOwn v = false := Bool.not_eq_true _ ▸ foreign
      have hline : e.outbox = [] ++ e.outbox := rfl
      refine hin.happen ?_ hline ?_
      · rintro rfl
        exact foreign (decide_eq_true rfl)
      · rw [List.append_nil, List.map_reverse, List.map_reverse]
        exact congrArg List.reverse (requests_record hforeign)
  | cut => exact ⟨hin.orderly, hin.standing, hin.on, hin.requests, hin.responses⟩

theorem inTransit_run (h : Chronicle) (c : Client) (actions : List Action) : InTransit ((start h c).run actions) := by
  have hrun (e : Exchange) (hin : InTransit e) : InTransit (e.run actions) := by
    induction actions generalizing e with
    | nil => exact hin
    | cons a actions ih => exact ih _ (hin.step a)
  exact hrun _ (start_inTransit h c)

/-! ### What the client has seen -/

theorem InTransit.subjects (hin : InTransit e) :
    ((e.received ++ e.client.inbox).flatMap (·.results)).map Acknowledgment.subject <+:
      e.submitted.map Operation.subject := by
  rw [hin.responses]
  refine hin.standing.subjects.trans ?_
  rw [taken, submitted, ← hin.requests, List.flatMap_append, List.map_append, List.flatMap_map]
  exact List.prefix_append ..

theorem InTransit.elections (hin : InTransit e) :
    (e.received ++ e.client.inbox).filterMap (·.electionId) = (grants e.session e.rounds).map (·.2) := by
  rw [hin.responses, elections_answers]

theorem InTransit.grants_presented (hin : InTransit e) :
    ((grants e.session e.rounds).map (·.1)).Sublist e.presented := by
  refine (Service.grants_presented e.session e.rounds).trans ?_
  rw [presented, ← hin.requests, List.filterMap_append]
  exact List.sublist_append_left ..

theorem InTransit.plain (hin : InTransit e) : ∀ m ∈ e.received ++ e.client.inbox, m.Plain := by
  rw [hin.responses]
  exact answers_plain e.session e.rounds

theorem InTransit.params (hin : InTransit e) :
    ((e.received ++ e.client.inbox).filterMap (·.paramsResult)).length ≤ 1 := by
  rw [hin.responses]
  exact params_answers e.session e.rounds

end Exchange

end RouteProgramming
