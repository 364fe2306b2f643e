import RouteProgramming.Proofs.Client.Accounts

/-! What a client notes. A call that sends a request notes some of what goes with
it first: that it waits for an answer to its parameters or its election id, that
it has another election id, or how far it has numbered its operations. When the
request cannot be sent that is what is left of the call, and a wait does not end
well before there is an answer to what nobody has been told. -/

namespace RouteProgramming

namespace Client

/-- A call that sends a request. -/
inductive Call where
  | startSending
  | updateElectionId (id : ElectionId)
  | modify (batch : List (OperationType × EntryDraft))

namespace Call

/-- How many operations there are to send. -/
def size : Call → Nat
  | .modify batch => batch.length
  | _ => 0

/-- An answer to the parameters will be owed. -/
def introduces : Call → Bool
  | .startSending => true
  | _ => false

/-- An answer to an election id will be owed. -/
def presents (c : Client) : Call → Bool
  | .startSending => c.electionId.isSome
  | .updateElectionId _ => true
  | .modify _ => false

/-- The election id that the client has from then on. -/
def electionId (c : Client) : Call → Option ElectionId
  | .updateElectionId id => some id
  | _ => c.electionId

end Call

/-- Makes a call, which returns the numbers of the operations that it has sent. -/
def perform (c : Client) (r : Responder) : Call → Except ClientError (List UInt64) × Client × Responder
  | .startSending => ((c.startSending r).1.map fun () => [], (c.startSending r).2)
  | .updateElectionId id => ((c.updateElectionId r id).1.map fun () => [], (c.updateElectionId r id).2)
  | .modify batch => c.modify r batch

/-- The request of a call, if its drafts can be built. -/
def request (c : Client) : Call → Except DraftError ModifyRequest
  | .startSending => .ok c.introduction
  | .updateElectionId id => .ok { electionId := some id }
  | .modify batch => (buildAll batch).map fun built => { operations := (c.number built).1 }

/-- What a client has noted when it comes to send the request of a call. -/
def noted (c : Client) : Call → Client
  | .startSending => c.introduced
  | .updateElectionId id => c.presenting id
  | .modify batch =>
    match buildAll batch with
    | .error _ => c
    | .ok built => (c.number built).2

/-- Why no request can be sent. -/
def lineFault? (c : Client) (r : Responder) : Option ClientError :=
  match c.stream with
  | none => some .notStarted
  | some ⟨.scripted _, _⟩ => none
  | some ⟨.device session, _⟩ => if r.isOpen session then none else some .sessionClosed

/-- Why a call fails. -/
def fault? (c : Client) (r : Responder) (a : Call) : Option ClientError :=
  match c.request a with
  | .error cause => some (.invalidEntry cause)
  | .ok _ => c.lineFault? r

/-- A call has nothing new to note: the answers are owed already, the id is the client's own, and there is nothing to
number. -/
def Spared (c : Client) : Call → Prop
  | .startSending => c.pending.params ∧ (c.electionId.isSome → c.pending.election)
  | .updateElectionId id => c.electionId = some id ∧ c.pending.election
  | .modify batch => (∃ cause, buildAll batch = .error cause) ∨ UInt64.ofNat batch.length = 0

variable {c : Client} {r : Responder} {a : Call} {e : ClientError} {request : ModifyRequest} {m : ModifyResponse}

/-! ### One call -/

theorem send_of_lineFault (h : c.lineFault? r = some e) (request : ModifyRequest) :
    c.send r request = (.error e, c, r) := by
  rw [lineFault?] at h
  rw [send]
  rcases hstream : c.stream with _ | ⟨session | closed, inbox⟩
  case none =>
    rw [hstream] at h
    cases h
    rfl
  case some.device =>
    rw [hstream] at h
    dsimp only at h ⊢
    cases hopen : r.isOpen session with
    | true =>
      rw [hopen] at h
      cases h
    | false =>
      rw [hopen] at h
      cases h
      rfl
  case some.scripted =>
    rw [hstream] at h
    cases h

/-- A request that is sent changes nothing in the client but what it hears. -/
theorem send_of_line (h : c.lineFault? r = none) (request : ModifyRequest) :
    ∃ ms r', c.send r request = (.ok (), c.hear ms, r') := by
  rw [lineFault?] at h
  rw [send]
  rcases hstream : c.stream with _ | ⟨session | closed, inbox⟩
  case none =>
    rw [hstream] at h
    cases h
  case some.device =>
    rw [hstream] at h
    dsimp only at h ⊢
    cases hopen : r.isOpen session with
    | true =>
      refine ⟨(r.handle session request).1, (r.handle session request).2, ?_⟩
      rw [hear, hstream]
      rfl
    | false =>
      rw [hopen] at h
      cases h
  case some.scripted => exact ⟨[], r, by rw [hear_nil]⟩

theorem lineFault?_noted (c : Client) (r : Responder) (a : Call) : (c.noted a).lineFault? r = c.lineFault? r := by
  cases a with
  | startSending | updateElectionId => rfl
  | modify batch =>
    rw [noted]
    split <;> rfl

/-- All calls go the same way: note, send, and then note the operations. -/
theorem perform_of_request (h : c.request a = .ok request) : c.perform r a =
    match (c.noted a).send r request with
    | (.error e, d, r) => (.error e, d, r)
    | (.ok (), d, r) => (.ok (request.operations.map (·.id)), d.owed (request.operations.map (·.id)), r) := by
  cases a with
  | startSending =>
    cases h
    rw [perform, startSending, noted]
    rcases c.introduced.send r c.introduction with ⟨_ | _, d, r'⟩ <;> rfl
  | updateElectionId id =>
    cases h
    rw [perform, updateElectionId, noted]
    rcases (c.presenting id).send r { electionId := some id } with ⟨_ | _, d, r'⟩ <;> rfl
  | modify batch =>
    rw [Client.request] at h
    rw [perform, modify, noted]
    cases hbuilt : buildAll batch with
    | error cause =>
      rw [hbuilt] at h
      cases h
    | ok built =>
      rw [hbuilt] at h
      cases h
      rfl

/-- A batch with a draft that is wrong is not even numbered. -/
theorem perform_of_draftError {cause : DraftError} (h : c.request a = .error cause) :
    c.noted a = c ∧ c.perform r a = (.error (.invalidEntry cause), c, r) := by
  cases a with
  | startSending | updateElectionId => cases h
  | modify batch =>
    rw [Client.request] at h
    rw [perform, modify, noted]
    cases hbuilt : buildAll batch with
    | error cause =>
      rw [hbuilt] at h
      cases h
      exact ⟨rfl, rfl⟩
    | ok built =>
      rw [hbuilt] at h
      cases h

theorem number_of_built (c : Client) {batch : List (OperationType × EntryDraft)}
    {built : List (OperationType × String × Entry)} (h : buildAll batch = .ok built) :
    (c.number built).1.map (·.id) = (List.range batch.length).map (c.nextOperationId + UInt64.ofNat ·) ∧
    (c.number built).2 = { c with nextOperationId := c.nextOperationId + UInt64.ofNat batch.length } := by
  have hids : (c.number built).1.map (·.id) =
      (List.range batch.length).map (c.nextOperationId + UInt64.ofNat ·) := by
    rw [← length_buildAll h]
    exact ids_numbered ..
  have hlength : (c.number built).1.length = batch.length := by
    simpa using congrArg List.length hids
  rw [number] at hlength ⊢
  exact ⟨hids, by rw [hlength]⟩

/-- A request numbers its operations from the next number on, and the client goes on behind them. -/
theorem numbers_request (h : c.request a = .ok request) :
    request.operations.map (·.id) = (List.range a.size).map (c.nextOperationId + UInt64.ofNat ·) ∧
    (c.noted a).nextOperationId = c.nextOperationId + UInt64.ofNat a.size := by
  cases a with
  | startSending | updateElectionId =>
    cases h
    exact ⟨rfl, (UInt64.add_zero _).symm⟩
  | modify batch =>
    rw [Client.request] at h
    rw [noted]
    cases hbuilt : buildAll batch with
    | error cause =>
      rw [hbuilt] at h
      cases h
    | ok built =>
      rw [hbuilt] at h
      cases h
      obtain ⟨hids, hclient⟩ := number_of_built c hbuilt
      exact ⟨hids, congrArg (·.nextOperationId) hclient⟩

/-- A call that fails has sent nothing, and leaves the client with what it has noted for it. -/
theorem perform_of_fault (h : c.fault? r a = some e) : c.perform r a = (.error e, c.noted a, r) := by
  rw [fault?] at h
  cases hrequest : c.request a with
  | error cause =>
    rw [hrequest] at h
    cases h
    obtain ⟨hnoted, hperform⟩ := perform_of_draftError hrequest
    rw [hperform, hnoted]
  | ok request =>
    rw [hrequest] at h
    rw [perform_of_request hrequest, send_of_lineFault ((lineFault?_noted c r a).trans h)]

theorem perform_of_no_fault (h : c.fault? r a = none) :
    (c.perform r a).1 = .ok ((List.range a.size).map (c.nextOperationId + UInt64.ofNat ·)) ∧
    (c.perform r a).2.1.nextOperationId = c.nextOperationId + UInt64.ofNat a.size := by
  rw [fault?] at h
  cases hrequest : c.request a with
  | error cause =>
    rw [hrequest] at h
    cases h
  | ok request =>
    rw [hrequest] at h
    obtain ⟨hids, hnext⟩ := numbers_request hrequest
    obtain ⟨ms, r', hsend⟩ := send_of_line ((lineFault?_noted c r a).trans h) request
    rw [perform_of_request hrequest, hsend]
    exact ⟨congrArg Except.ok hids, hnext⟩

theorem perform_error_iff : (c.perform r a).1 = .error e ↔ c.fault? r a = some e := by
  cases hfault : c.fault? r a with
  | none =>
    rw [(perform_of_no_fault hfault).1]
    exact iff_of_false nofun nofun
  | some cause =>
    rw [perform_of_fault hfault]
    simp

theorem noted_of_spared (h : c.Spared a) : c.noted a = c := by
  cases a with
  | startSending =>
    obtain ⟨hparams, helection⟩ := h
    have hsame : (c.pending.election || c.electionId.isSome) = c.pending.election := by
      cases hsome : c.electionId.isSome with
      | false => rw [Bool.or_false]
      | true => rw [Bool.or_true, helection hsome]
    rw [noted, introduced, hsame, ← hparams]
  | updateElectionId id =>
    obtain ⟨hid, helection⟩ := h
    rw [noted, presenting, ← hid, ← helection]
  | modify batch =>
    rw [noted]
    cases hbuilt : buildAll batch with
    | error cause => rfl
    | ok built =>
      have hzero : UInt64.ofNat batch.length = 0 := Or.resolve_left h (by simp [hbuilt])
      dsimp only
      rw [(number_of_built c hbuilt).2, hzero, UInt64.add_zero]

theorem spared_of_unchanged (pending : (c.noted a).pending = c.pending)
    (electionId : (c.noted a).electionId = c.electionId)
    (next : (c.noted a).nextOperationId = c.nextOperationId) : c.Spared a := by
  cases a with
  | startSending =>
    have hparams : true = c.pending.params := congrArg Pending.params pending
    have helection : (c.pending.election || c.electionId.isSome) = c.pending.election :=
      congrArg Pending.election pending
    refine ⟨hparams.symm, fun hsome => ?_⟩
    rw [← helection, hsome, Bool.or_true]
  | updateElectionId id => exact ⟨electionId.symm, (congrArg Pending.election pending).symm⟩
  | modify batch =>
    cases hbuilt : buildAll batch with
    | error cause => exact .inl ⟨cause, hbuilt⟩
    | ok built =>
      rw [noted, hbuilt] at next
      dsimp only at next
      rw [(number_of_built c hbuilt).2] at next
      exact .inr (UInt64.add_eq_left.mp next)

/-! ### What comes of it -/

/-- A client with more answers to wait for, another election id and another next number. -/
def annotated (c : Client) (params election : Bool) (electionId : Option ElectionId) (next : UInt64) : Client :=
  { c with
    electionId
    nextOperationId := next
    pending := { c.pending with params := c.pending.params || params, election := c.pending.election || election } }

theorem noted_eq_annotated (c : Client) (a : Call) :
    c.noted a = c.annotated a.introduces (a.presents c) (a.electionId c) (c.noted a).nextOperationId := by
  cases a with
  | startSending => simp [noted, introduced, annotated, Call.introduces, Call.presents, Call.electionId]
  | updateElectionId id => simp [noted, presenting, annotated, Call.introduces, Call.presents, Call.electionId]
  | modify batch =>
    rw [noted]
    split <;> simp [number, annotated, Call.introduces, Call.presents, Call.electionId]

section Annotated

variable {params election : Bool} {electionId : Option ElectionId} {next : UInt64} {channel : Channel} {closed : Bool}
  {timeout : Nat}

theorem isEmpty_annotated_iff : (c.annotated params election electionId next).pending.isEmpty ↔
    c.pending.isEmpty ∧ params = false ∧ election = false := by
  simp only [annotated, Pending.isEmpty, Pending.count, beq_iff_eq, Nat.add_eq_zero_iff, Bool.toNat_eq_zero,
    Bool.or_eq_false_iff]
  tauto

/-- Who waits for nothing waits for none of the answers added. -/
theorem isEmpty_of_annotated {P Q : Prop} (h : (c.annotated params election electionId next).pending.isEmpty) :
    c.pending.isEmpty ∧ (params → P) ∧ (election → Q) := by
  obtain ⟨hc, rfl, rfl⟩ := isEmpty_annotated_iff.mp h
  exact ⟨hc, (absurd · Bool.false_ne_true), (absurd · Bool.false_ne_true)⟩

theorem acceptElection_annotated (c : Client) (id? : Option ElectionId) :
    (c.annotated params election electionId next).acceptElection id? =
      (c.acceptElection id?).annotated params (election && id?.isNone) electionId next := by
  cases id? <;> simp [acceptElection, annotated]

theorem acceptAcknowledgments_annotated (c : Client) (acks : List Acknowledgment) :
    acks.foldl acceptAcknowledgment (c.annotated params election electionId next) =
      (acks.foldl acceptAcknowledgment c).annotated params election electionId next := by
  rw [foldl_acceptAcknowledgment, foldl_acceptAcknowledgment]
  rfl

/-- An answer to the parameters is one whatever else is owed. -/
theorem acceptParams_annotated (c : Client) (result? : Option ParametersResult) :
    (c.annotated params election electionId next).acceptParams result? =
      ((c.acceptParams result?).1,
        (c.acceptParams result?).2.annotated (params && result?.isNone) election electionId next) := by
  rcases result? with _ | _ | _ <;> simp [acceptParams, annotated]

/-- The answers that come are noted in the same way, and take away what there is to wait for. A refusal of the
parameters hides an answer to the election id, but it ends the wait. -/
theorem accept_annotated (c : Client) (params election : Bool) (electionId : Option ElectionId) (next : UInt64)
    (m : ModifyResponse) : ∃ election', (c.annotated params election electionId next).accept m =
      ((c.accept m).1, (c.accept m).2.annotated (params && m.paramsResult.isNone) election' electionId next) ∧
    (election = false → election' = false) ∧
    ((c.accept m).1 = .ok () → election' = (election && m.electionId.isNone)) := by
  rw [accept, accept, acceptParams_annotated]
  rcases c.acceptParams m.paramsResult with ⟨_ | _, d⟩
  case error =>
    refine ⟨election, rfl, id, fun hok => ?_⟩
    cases hok
  case ok =>
    refine ⟨election && m.electionId.isNone, ?_, fun h => by rw [h, Bool.false_and], fun _ => rfl⟩
    dsimp only
    rw [acceptElection_annotated, acceptAcknowledgments_annotated]
    cases m.error <;> rfl

/-- A client at a moment of its wait. -/
def facing (c : Client) (channel : Channel) (inbox : List ModifyResponse) : Client :=
  { c with stream := some ⟨channel, inbox⟩ }

theorem awaitFrom_nil : awaitFrom channel closed timeout [] c =
    (if c.pending.isEmpty then .ok () else .error (if closed then .sessionClosed else .timeout timeout c.pending.count),
      c.facing channel []) := by
  rw [awaitFrom]
  dsimp only
  split <;> rfl

theorem awaitFrom_cons {inbox : List ModifyResponse} : awaitFrom channel closed timeout (m :: inbox) c =
    if c.pending.isEmpty then (.ok (), c.facing channel (m :: inbox)) else
      match (c.facing channel inbox).accept m with
      | (.error e, c) => (.error e, c)
      | (.ok (), c) => awaitFrom channel closed timeout inbox c := by
  rw [awaitFrom]
  rfl

theorem facing_annotated {inbox : List ModifyResponse} :
    (c.annotated params election electionId next).facing channel inbox =
      (c.facing channel inbox).annotated params election electionId next := rfl

/-- Who has no more to wait for waits in the same way. -/
theorem awaitFrom_annotated (c : Client) (inbox : List ModifyResponse) :
    awaitFrom channel closed timeout inbox (c.annotated false false electionId next) =
      ((awaitFrom channel closed timeout inbox c).1,
        (awaitFrom channel closed timeout inbox c).2.annotated false false electionId next) := by
  have hpending (c : Client) : (c.annotated false false electionId next).pending = c.pending := by
    simp [annotated]
  induction inbox generalizing c with
  | nil => rw [awaitFrom_nil, awaitFrom_nil, hpending, facing_annotated]
  | cons m inbox ih =>
    obtain ⟨election', haccept, hnone, -⟩ := (c.facing channel inbox).accept_annotated false false electionId next m
    rw [hnone rfl, Bool.false_and] at haccept
    rw [awaitFrom_cons, awaitFrom_cons, hpending, facing_annotated, facing_annotated, haccept]
    split
    · rfl
    · rcases (c.facing channel inbox).accept m with ⟨_ | _, d⟩
      · rfl
      · exact ih d

/-- Who has more to wait for waits at least as long, and until it has been answered. -/
theorem awaitFrom_annotated_ok {inbox : List ModifyResponse}
    (h : (awaitFrom channel closed timeout inbox (c.annotated params election electionId next)).1 = .ok ()) :
    (awaitFrom channel closed timeout inbox c).1 = .ok () ∧
    (params → ∃ m ∈ inbox, m.paramsResult.isSome) ∧ (election → ∃ m ∈ inbox, m.electionId.isSome) := by
  induction inbox generalizing c params election with
  | nil =>
    rw [awaitFrom_nil] at h
    split at h
    case isTrue hnone =>
      obtain ⟨hc, hnothing⟩ := isEmpty_of_annotated hnone
      rw [awaitFrom_nil, if_pos hc]
      exact ⟨rfl, hnothing⟩
    case isFalse => cases h
  | cons m inbox ih =>
    rw [awaitFrom_cons] at h
    split at h
    case isTrue hnone =>
      obtain ⟨hc, hnothing⟩ := isEmpty_of_annotated hnone
      rw [awaitFrom_cons, if_pos hc]
      exact ⟨rfl, hnothing⟩
    case isFalse =>
      obtain ⟨election', haccept, -, hanswered⟩ :=
        (c.facing channel inbox).accept_annotated params election electionId next m
      rw [facing_annotated, haccept] at h
      rw [awaitFrom_cons]
      cases hkept : (c.facing channel inbox).accept m with
      | mk result d =>
        rw [hkept] at h hanswered
        cases result with
        | error cause => cases h
        | ok =>
          rw [hanswered rfl] at h
          obtain ⟨hrest, hparams, helection⟩ := ih h
          -- what this response does not answer is answered in the rest
          refine ⟨?_, fun hp => ?_, fun he => ?_⟩
          · split
            · rfl
            · exact hrest
          · rw [List.exists_mem_cons_iff]
            cases hm : m.paramsResult with
            | some result => exact .inl rfl
            | none => exact .inr (hparams (by rw [hp, hm]; rfl))
          · rw [List.exists_mem_cons_iff]
            cases hm : m.electionId with
            | some id => exact .inl rfl
            | none => exact .inr (helection (by rw [he, hm]; rfl))

theorem await_annotated (c : Client) (r : Responder) (timeout : Nat) (electionId : Option ElectionId) (next : UInt64) :
    (c.annotated false false electionId next).await r timeout =
      ((c.await r timeout).1, (c.await r timeout).2.annotated false false electionId next) := by
  have hpending : (c.annotated false false electionId next).pending = c.pending := by
    simp [annotated]
  have hstream : (c.annotated false false electionId next).stream = c.stream := rfl
  rw [await, await, hstream, hpending]
  cases c.stream with
  | none => rfl
  | some s => exact awaitFrom_annotated c s.inbox

theorem await_annotated_ok (h : ((c.annotated params election electionId next).await r timeout).1 = .ok ()) :
    (c.await r timeout).1 = .ok () ∧
    (params → ∃ m ∈ c.inbox, m.paramsResult.isSome) ∧ (election → ∃ m ∈ c.inbox, m.electionId.isSome) := by
  have hstream : (c.annotated params election electionId next).stream = c.stream := rfl
  rw [await, hstream] at h
  rw [await, inbox]
  cases hc : c.stream with
  | none =>
    rw [hc] at h
    dsimp only at h ⊢
    split at h
    case isTrue hnone =>
      obtain ⟨hempty, hnothing⟩ := isEmpty_of_annotated hnone
      rw [if_pos hempty]
      exact ⟨rfl, hnothing⟩
    case isFalse => cases h
  | some s =>
    rw [hc] at h
    exact awaitFrom_annotated_ok h

end Annotated

/-- A wait takes no notice of an election id or of numbers. -/
theorem await_noted (params : a.introduces = false) (election : a.presents c = false) (r : Responder) (timeout : Nat) :
    ((c.noted a).await r timeout).1 = (c.await r timeout).1 := by
  rw [noted_eq_annotated, params, election, await_annotated]

/-- A wait does not end well before there is an answer to what has not been sent. -/
theorem await_noted_ok {timeout : Nat} (h : ((c.noted a).await r timeout).1 = .ok ()) :
    (c.await r timeout).1 = .ok () ∧ (a.introduces → ∃ m ∈ c.inbox, m.paramsResult.isSome) ∧
    (a.presents c → ∃ m ∈ c.inbox, m.electionId.isSome) := by
  rw [noted_eq_annotated] at h
  exact await_annotated_ok h

/-- A flush reads nothing but the options and the election id. -/
theorem flush_noted (c : Client) (a : Call) (r : Responder) (target : Option FlushTarget) (electionOverride : Bool) :
    (c.noted a).flush r target electionOverride =
      { c with electionId := a.electionId c }.flush r target electionOverride := by
  rw [noted_eq_annotated]
  rfl

/-- A start forgets all but the numbers. -/
theorem start_noted (h : (c.start r).1 = .ok ()) : (c.noted a).start r =
    (.ok (), { (c.start r).2.1 with nextOperationId := (c.noted a).nextOperationId }, (c.start r).2.2) := by
  rw [noted_eq_annotated]
  generalize (c.noted a).nextOperationId = next
  have hconnection : (c.annotated a.introduces (a.presents c) (a.electionId c) next).connection = c.connection := rfl
  rw [start, hconnection]
  rw [start] at h ⊢
  cases hcheck : c.connection.check with
  | error cause =>
    rw [hcheck] at h
    cases h
  | ok stub => rfl

end Client

end RouteProgramming
