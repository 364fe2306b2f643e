import RouteProgramming.Proofs.Responder.Service

/-! What one event can do to the responder. Each stage either fails and leaves
the responder as it is, or settles the parameters of its session, or presents
an election id, or programs a batch; the list of these outcomes, with those of
all other events, is what later statements about single steps analyse. What the
events do to the tables is a history of the RIB, so that every chronicle has a
coherent RIB. -/

namespace RouteProgramming

namespace Responder

variable {r s : Responder} {client other : ClientId}

/-- The parameters that a session has settled. -/
def parameters? (r : Responder) (client : ClientId) : Option Parameters :=
  (r.sessions.get? client).bind (·.params)

theorem mem_settled_iff {params : Parameters} :
    (client, params) ∈ r.settled ↔ r.parameters? client = some params := by
  rw [settled, List.mem_filterMap, parameters?, Option.bind_eq_some_iff]
  simp only [Option.map_eq_some_iff, Prod.mk.injEq, Table.get?_eq_some_iff]
  constructor
  · rintro ⟨⟨_, session⟩, hrow, _, hparams, rfl, rfl⟩
    exact ⟨session, hrow, hparams⟩
  · rintro ⟨session, hrow, hparams⟩
    exact ⟨(client, session), hrow, params, hparams, rfl, rfl⟩

theorem state_respond (r : Responder) (client : ClientId) (response : ModifyResponse) :
    (r.respond client response).state = r := by
  rw [respond]
  split <;> rfl

/-! ### The stages of a request -/

inductive Settling (r : Responder) (client : ClientId) : Progress → Prop
  | refused {p : Progress} {e : Refusal} (same : p.state = r) (refusal : p.refusal = some e) : Settling r client p
  | before {p : Progress} (same : p.state = r) (settled : (r.parameters? client).isSome) : Settling r client p
  | now {p : Progress} {params : Parameters} (fresh : r.parameters? client = none)
    (agreed : r.negotiate client params = .ok p.state) : Settling r client p

theorem settle_cases (r : Responder) (client : ClientId) (params : Option Parameters) :
    Settling r client (r.settle client params) := by
  unfold settle
  dsimp only
  split
  case h_1 => exact .refused rfl rfl
  case h_2 params hfresh =>
    split
    case h_1 s agreed =>
      refine @Settling.now r client _ params (Option.isNone_iff_eq_none.1 hfresh) ?_
      rw [state_respond, agreed]
    case h_2 e refused =>
      rw [respond]
      split <;> exact .refused rfl rfl
  case h_3 hfresh =>
    split
    case h_1 s agreed => exact .now (Option.isNone_iff_eq_none.1 hfresh) agreed
    case h_2 e refused => exact .refused rfl rfl
  case h_4 hfresh => exact .before rfl (by simpa [parameters?, Option.isSome_iff_ne_none] using hfresh)

theorem negotiate_ok {params : Parameters} (h : r.negotiate client params = .ok s) :
    s = r.updateSession client ({ · with params := some params }) ∧ params.check = .ok () ∧
      r.disagreeing? client params = none ∧ (params.ackType = .ribAndFib → r.config.fibAckSupported) := by
  rw [negotiate] at h
  split at h
  case h_1 => contradiction
  case h_2 hcheck =>
    split at h
    case isTrue => contradiction
    case isFalse hsupport =>
      split at h
      case h_1 => contradiction
      case h_2 hagree => exact ⟨(Except.ok.inj h).symm, hcheck, hagree, by simpa using hsupport⟩

theorem present_ok {id primary : ElectionId} (h : r.present client id = .ok (primary, s)) :
    id.check = .ok () ∧ (r.parameters? client).map (·.redundancy) = some .singleElectedPrimary ∧
      primary = r.primary.elim id (max id) ∧
      s = { r.updateSession client ({ · with electionId := some id }) with primary := some primary } := by
  rw [present] at h
  split at h
  case h_1 => contradiction
  case h_2 hcheck =>
    split at h
    case isTrue hsingle =>
      cases h
      exact ⟨hcheck, hsingle, rfl, rfl⟩
    case isFalse => contradiction

theorem elect_cases (r : Responder) (client : ClientId) (id? : Option ElectionId) :
    ((r.elect client id?).state = r ∧ ∀ id, id? = some id → ∃ e, r.present client id = .error e) ∨
      ∃ id primary, id? = some id ∧ r.present client id = .ok (primary, (r.elect client id?).state) := by
  cases id? with
  | none => exact .inl ⟨rfl, nofun⟩
  | some id =>
    rw [elect]
    split
    case h_1 primary s accepted => exact .inr ⟨id, primary, rfl, by rw [state_respond, accepted]⟩
    case h_2 e refused => exact .inl ⟨rfl, fun id' h => ⟨e, Option.some.inj h ▸ refused⟩⟩

theorem flush_ok {request : FlushRequest} {response : FlushResponse} {t : Responder}
    (h : r.flush request = .ok (response, t)) : ∃ targets, r.checkFlush request = .ok () ∧
      r.flushTargets request.target = .ok targets ∧ t = { r with rib := (r.rib.flushAll targets).2 } := by
  rw [Responder.flush] at h
  cases hcheck : r.checkFlush request with
  | error e => rw [hcheck] at h; contradiction
  | ok =>
    cases htargets : r.flushTargets request.target with
    | error e => rw [hcheck, htargets] at h; contradiction
    | ok targets =>
      rw [hcheck, htargets] at h
      cases h
      exact ⟨targets, rfl, rfl, rfl⟩

theorem runBatch_cases (r : Responder) (client : ClientId) (operations : List Operation) :
    (r.runBatch client operations).state = r ∨
      (r.runBatch client operations).state = (r.program client operations).2 := by
  cases operations with
  | nil => exact .inl rfl
  | cons => exact .inr (state_respond ..)

/-! ### Sessions after a change -/

theorem get?_updateSession (r : Responder) (client : ClientId) (f : Session → Session) (other : ClientId) :
    (r.updateSession client f).sessions.get? other =
      if other = client then (r.sessions.get? client).map f else r.sessions.get? other :=
  Table.get?_modify ..

theorem session_of_updateSession {f : Session → Session} {session : Session}
    (h : (r.updateSession client f).sessions.get? other = some session) :
    ∃ old, r.sessions.get? other = some old ∧ session = if other = client then f old else old := by
  rw [get?_updateSession] at h
  split at h
  case isTrue hother =>
    obtain ⟨old, hold, rfl⟩ := Option.map_eq_some_iff.1 h
    exact ⟨old, hother ▸ hold, (if_pos hother).symm⟩
  case isFalse hother => exact ⟨session, h, (if_neg hother).symm⟩

/-- Settled parameters stay as they are. -/
theorem parameters?_updateSession {f : Session → Session}
    (hf : ∀ session, r.sessions.get? client = some session → session.params.isSome →
      (f session).params = session.params) (h : (r.parameters? other).isSome) :
    (r.updateSession client f).parameters? other = r.parameters? other := by
  rw [parameters?, parameters?, get?_updateSession]
  split
  case isTrue hother =>
    rw [parameters?, hother] at h
    rw [hother]
    cases hsession : r.sessions.get? client with
    | none => rfl
    | some session =>
      rw [hsession, Option.bind_some] at h
      exact hf session hsession h
  case isFalse => rfl

/-- A session that has gone through a first stage without failing has settled its parameters. -/
theorem Settling.parameters? {p : Progress} (hopen : r.isOpen client) (h : Settling r client p)
    (hp : p.refusal = none) : (p.state.parameters? client).isSome := by
  cases h with
  | refused same refusal => rw [hp] at refusal; contradiction
  | before same settled => rw [same]; exact settled
  | now fresh agreed =>
    obtain ⟨session, hsession⟩ := Option.isSome_iff_exists.1 hopen
    rw [Responder.parameters?, (negotiate_ok agreed).1, get?_updateSession, if_pos rfl, hsession]
    rfl

/-! ### The end of a session -/

theorem rib_disconnect_cases (r : Responder) (client : ClientId) :
    ((∀ params, r.parameters? client = some params → params.persistence = .preserve) ∧
      (r.disconnect client).rib = r.rib) ∨
    ((∃ params, r.parameters? client = some params ∧ params.persistence = .delete) ∧
      (r.disconnect client).rib = (r.rib.removeOwnedBy client).2) := by
  rw [disconnect, parameters?]
  dsimp only
  split
  case h_1 hnone => exact .inl ⟨fun params h => absurd (hnone.symm.trans h) nofun, rfl⟩
  case h_2 params hsome =>
    split
    case h_1 hpreserve => exact .inl ⟨fun _ h => Option.some.inj (hsome.symm.trans h) ▸ hpreserve, rfl⟩
    case h_2 hdelete => exact .inr ⟨⟨params, hsome, hdelete⟩, rfl⟩

/-- Apart from the RIB, only the session itself is gone. -/
theorem disconnect_eq (r : Responder) (client : ClientId) : r.disconnect client =
    { r with sessions := r.sessions.erase client, rib := (r.disconnect client).rib } := by
  rw [disconnect]
  dsimp only
  split
  · rfl
  · split <;> rfl

theorem isOpen_updateSession (r : Responder) (client : ClientId) (f : Session → Session) (other : ClientId) :
    (r.updateSession client f).isOpen other = r.isOpen other := by
  rw [isOpen, isOpen, Table.contains, Table.contains, get?_updateSession]
  split
  case isTrue h => rw [h, Option.isSome_map]
  case isFalse => rfl

theorem isOpen_disconnect (r : Responder) (client other : ClientId) :
    (r.disconnect client).isOpen other = if other = client then false else r.isOpen other := by
  rw [isOpen, disconnect_eq, Table.contains]
  dsimp only
  rw [Table.get?_erase]
  split <;> rfl

theorem isOpen_of_parameters? {params : Parameters} (h : r.parameters? client = some params) :
    r.isOpen client := by
  obtain ⟨session, hsession, -⟩ := Option.bind_eq_some_iff.1 h
  exact Table.contains_iff.2 ⟨session, hsession⟩

end Responder

namespace Service

open Responder

variable {s : Service} {client : ClientId} {v : Event} {id? : Option (ClientId × ElectionId)} {r : Responder}

/-! ### One event -/

/-- The election id that an event presents and the responder accepts, with the client that presents it. -/
def presented? (s : Service) : Event → Option (ClientId × ElectionId)
  | .proceed client =>
    match s.duty client with
    | .elect (some id) _ =>
      match s.responder.present client id with
      | .ok _ => some (client, id)
      | .error _ => none
    | _ => none
  | _ => none

/-- What an event can do to the responder, together with the election id that it presents. -/
inductive Stepped (s : Service) : Event → Option (ClientId × ElectionId) → Responder → Prop
  | idle {v : Event} : Stepped s v none s.responder
  | connected : Stepped s .connect none s.responder.connect.2
  | deafened {client : ClientId} : Stepped s (.deafen client) none (s.responder.deafen client)
  | settled {client : ClientId} {request : ModifyRequest} {params : Parameters}
    (fresh : s.responder.parameters? client = none) (valid : params.check = .ok ())
    (agreed : s.responder.disagreeing? client params = none)
    (supported : params.ackType = .ribAndFib → s.responder.config.fibAckSupported) :
    Stepped s (.request client request) none (s.responder.updateSession client ({ · with params := some params }))
  | presented {client : ClientId} {id : ElectionId} (valid : id.check = .ok ())
    (single : (s.responder.parameters? client).map (·.redundancy) = some .singleElectedPrimary) :
    Stepped s (.proceed client) (some (client, id))
      { s.responder.updateSession client ({ · with electionId := some id }) with
        primary := some (s.responder.primary.elim id (max id)) }
  | programmed {client : ClientId} {operations : List Operation} (turn : s.duty client = .program operations)
    (settled : (s.responder.parameters? client).isSome) :
    Stepped s (.proceed client) none (s.responder.program client operations).2
  | closed {v : Event} {client : ClientId} (idle : s.duty client = .listen ∨ s.duty client = .leave) :
    Stepped s v none (s.responder.disconnect client)
  | flushed {request : FlushRequest} {targets : List String} (check : s.responder.checkFlush request = .ok ())
    (known : s.responder.flushTargets request.target = .ok targets) :
    Stepped s (.flush request) none { s.responder with rib := (s.responder.rib.flushAll targets).2 }
  | changed {change : Rib.Event} {outside : change.isOutside} :
    Stepped s (.plane change outside) none { s.responder with rib := s.responder.rib.step change }

/-- Sessions are numbered in the order in which they are opened, and one in the middle of a request has settled
its parameters. -/
structure Orderly (s : Service) : Prop where
  numbered : ∀ client session, s.responder.sessions.get? client = some session →
    client < s.responder.nextClient
  settled : ∀ client, s.duty client = .listen ∨ s.duty client = .leave ∨
    (s.responder.parameters? client).isSome

theorem responder_conclude (s : Service) (client : ClientId) (p : Progress) (next : Duty) :
    (s.conclude client p next).2.responder = p.state := by
  rw [conclude]
  split <;> rfl

theorem step_cases (hs : s.Orderly) (v : Event) :
    Stepped s v (s.presented? v) (s.step v).2.responder := by
  cases v with
  | connect => exact .connected
  | request client request =>
    rw [step]
    split
    case isTrue h =>
      rw [responder_conclude]
      cases s.responder.settle_cases client request.params with
      | refused same | before same => rw [same]; exact .idle
      | now fresh agreed =>
        obtain ⟨hstate, hvalid, hagreed, hsupported⟩ := negotiate_ok agreed
        rw [hstate]
        exact .settled fresh hvalid hagreed hsupported
    case isFalse => exact .idle
  | proceed client =>
    rw [step, presented?]
    cases hduty : s.duty client with
    | listen => exact .idle
    | leave => exact .closed (.inr hduty)
    | elect id? operations =>
      dsimp only
      rw [responder_conclude]
      rcases s.responder.elect_cases client id? with ⟨same, refused⟩ | ⟨id, primary, rfl, accepted⟩
      · rw [same]
        cases id? with
        | none => exact .idle
        | some id =>
          obtain ⟨e, he⟩ := refused id rfl
          dsimp only
          rw [he]
          exact .idle
      · dsimp only
        rw [accepted]
        obtain ⟨hvalid, hsingle, rfl, hstate⟩ := present_ok accepted
        rw [hstate]
        exact .presented hvalid hsingle
    | program operations =>
      dsimp only
      rw [responder_conclude]
      rcases s.responder.runBatch_cases client operations with same | same
      · rw [same]
        exact .idle
      · rw [same]
        refine .programmed hduty ?_
        have := hs.settled client
        simpa [hduty] using this
  | hangUp client =>
    rw [step]
    dsimp only
    split
    case isTrue hduty => exact .closed (.inl hduty)
    case isFalse => exact .idle
  | deafen client => exact .deafened
  | flush request =>
    rw [step]
    split
    case h_1 response r accepted =>
      obtain ⟨targets, hcheck, hknown, hstate⟩ := flush_ok accepted
      rw [hstate]
      exact .flushed hcheck hknown
    case h_2 => exact .idle
  | plane change outside => exact .changed

/-! ### Sessions from one event to the next -/

theorem connect_numbered (hs : s.Orderly) (client : ClientId) (h : (s.responder.parameters? client).isSome) :
    s.responder.connect.2.parameters? client = s.responder.parameters? client := by
  obtain ⟨params, hparams⟩ := Option.isSome_iff_exists.1 h
  obtain ⟨session, hsession, -⟩ := Option.bind_eq_some_iff.1 hparams
  have hne := Nat.ne_of_lt (hs.numbered client session hsession)
  rw [parameters?, parameters?, connect]
  dsimp only
  rw [Table.get?_insert_of_ne _ _ hne]

/-- Settled parameters stay until the session ends. -/
theorem Stepped.parameters? (hs : s.Orderly) (h : Stepped s v id? r)
    (hparams : (s.responder.parameters? client).isSome) : r.parameters? client = s.responder.parameters? client ∨
      r.sessions.get? client = none ∧ (s.duty client = .listen ∨ s.duty client = .leave) := by
  cases h with
  | idle | flushed | changed => exact .inl rfl
  | connected => exact .inl (connect_numbered hs client hparams)
  | deafened | presented | programmed => exact .inl (parameters?_updateSession (fun _ _ _ => rfl) hparams)
  | settled fresh =>
    refine .inl (parameters?_updateSession (fun session hsession hsome => ?_) hparams)
    rw [Responder.parameters?, hsession, Option.bind_some] at fresh
    rw [fresh] at hsome
    contradiction
  | @closed _ other idle =>
    rw [Responder.parameters?, disconnect_eq, Responder.parameters?]
    dsimp only
    by_cases hother : client = other
    · subst hother
      exact .inr ⟨Table.get?_erase_self .., idle⟩
    · rw [Table.get?_erase_of_ne _ hother]
      exact .inl rfl

/-- The id that a session presented last, given that it was `before` and what is presented now. -/
def latest (id? : Option (ClientId × ElectionId)) (client : ClientId) (before : Option ElectionId) :
    Option ElectionId :=
  match id? with
  | some (presenter, id) => if presenter = client then some id else before
  | none => before

/-- A session is new, or it was there before and remembers the id that it presented last. -/
theorem Stepped.session {session : Session} (h : Stepped s v id? r) (hsession : r.sessions.get? client = some session) :
    (client = s.responder.nextClient ∧ session = {} ∧ id? = none ∧ client < r.nextClient) ∨
      ∃ old, s.responder.sessions.get? client = some old ∧ session.electionId = latest id? client old.electionId := by
  cases h with
  | idle | flushed | changed => exact .inr ⟨session, hsession, rfl⟩
  | connected =>
    rw [connect] at hsession
    dsimp only at hsession
    rw [Table.get?_insert] at hsession
    split at hsession
    case isTrue hnew => exact .inl ⟨hnew, (Option.some.inj hsession).symm, rfl, hnew ▸ Nat.lt_succ_self _⟩
    case isFalse => exact .inr ⟨session, hsession, rfl⟩
  | deafened | settled | programmed =>
    obtain ⟨old, hold, rfl⟩ := session_of_updateSession hsession
    exact .inr ⟨old, hold, by split <;> rfl⟩
  | presented =>
    obtain ⟨old, hold, rfl⟩ := session_of_updateSession hsession
    refine .inr ⟨old, hold, ?_⟩
    simp only [latest, eq_comm]
    split <;> rfl
  | @closed _ other =>
    rw [disconnect_eq] at hsession
    dsimp only at hsession
    rw [Table.get?_erase] at hsession
    split at hsession
    · contradiction
    · exact .inr ⟨session, hsession, rfl⟩

theorem Stepped.nextClient_le (h : Stepped s v id? r) : s.responder.nextClient ≤ r.nextClient := by
  cases h with
  | connected => exact Nat.le_succ _
  | closed => exact Nat.le_of_eq (by rw [disconnect_eq])
  | idle | deafened | settled | presented | programmed | flushed | changed => exact Nat.le_refl _

/-- Only a presentation changes the primary id. -/
theorem Stepped.primary (h : Stepped s v id? r) :
    r.primary = id?.elim s.responder.primary (fun p => some (s.responder.primary.elim p.2 (max p.2))) := by
  cases h with
  | closed => rw [disconnect_eq]; rfl
  | idle | connected | deafened | settled | presented | programmed | flushed | changed => rfl

theorem run_flushAll (r : Rib) (nis : List String) : (r.flushAll nis).2 = r.run (nis.map .flush) := by
  induction nis generalizing r with
  | nil => rfl
  | cons ni nis ih => exact ih _

/-- What an event does to the tables is a history of the RIB. -/
theorem Stepped.rib (h : Stepped s v id? r) : ∃ es, r.rib = s.responder.rib.run es := by
  cases h with
  | idle | connected | deafened | settled | presented => exact ⟨[], rfl⟩
  | @programmed client operations => exact ⟨[.batch (s.responder.context client) operations], rfl⟩
  | @closed _ client =>
    rcases s.responder.rib_disconnect_cases client with ⟨-, hsame⟩ | ⟨-, hremoved⟩
    · exact ⟨[], hsame⟩
    · exact ⟨[.removeOwnedBy client], hremoved⟩
  | flushed => exact ⟨_, run_flushAll ..⟩
  | @changed change => exact ⟨[change], rfl⟩

/-! ### Any number of events -/

theorem duty_conclude (s : Service) (client : ClientId) (p : Progress) (next : Duty) (other : ClientId) :
    (s.conclude client p next).2.duty other =
      if other = client then (if p.refusal.isNone then next else .leave) else s.duty other := by
  have hinsert (d : Duty) : duty ⟨p.state, s.duties.insert client d⟩ other =
      if other = client then d else s.duty other := by
    rw [duty, Table.get?_insert]
    split <;> rfl
  rw [conclude]
  cases hp : p.refusal <;> exact hinsert _

/-- A session that gets something to do has settled its parameters. -/
theorem duty_step (hs : s.Orderly) (v : Event) (other : ClientId) :
    (s.step v).2.duty other = s.duty other ∨ (s.step v).2.duty other = .listen ∨
      (s.step v).2.duty other = .leave ∨ ((s.step v).2.responder.parameters? other).isSome := by
  have hclose {client : ClientId} : (s.close client).duty other = s.duty other ∨
      (s.close client).duty other = .listen := by
    by_cases hother : other = client
    · exact .inr (hother ▸ duty_close s client)
    · exact .inl (by rw [duty, close, Table.get?_erase_of_ne _ hother, duty])
  cases v with
  | connect | deafen | plane => exact .inl rfl
  | request client request =>
    rw [step]
    split
    case isTrue h =>
      rw [duty_conclude, responder_conclude]
      by_cases hother : other = client
      · subst hother
        cases hp : (s.responder.settle other request.params).refusal with
        | some e => exact .inr (.inr (.inl (by simp)))
        | none => exact .inr (.inr (.inr ((settle_cases ..).parameters? h.1 hp)))
      · exact .inl (if_neg hother)
    case isFalse => exact .inl rfl
  | proceed client =>
    have hstep := step_cases hs (.proceed client)
    rw [step] at hstep ⊢
    cases hduty : s.duty client with
    | listen => exact .inl rfl
    | leave => exact hclose.imp_right .inl
    | elect id? operations =>
      rw [hduty] at hstep
      dsimp only at hstep ⊢
      rw [duty_conclude]
      by_cases hother : other = client
      · subst hother
        have hsettled : (s.responder.parameters? other).isSome := by
          simpa [hduty] using hs.settled other
        rcases hstep.parameters? hs hsettled with hsame | ⟨-, hidle⟩
        · exact .inr (.inr (.inr (hsame ▸ hsettled)))
        · simp [hduty] at hidle
      · exact .inl (if_neg hother)
    | program operations =>
      dsimp only
      rw [duty_conclude]
      by_cases hother : other = client
      · rw [if_pos hother]
        cases (s.responder.runBatch client operations).refusal with
        | none => exact .inr (.inl rfl)
        | some e => exact .inr (.inr (.inl rfl))
      · exact .inl (if_neg hother)
  | hangUp client =>
    rw [step]
    dsimp only
    split
    · exact hclose.imp_right .inl
    · exact .inl rfl
  | flush request =>
    rw [step]
    split <;> exact .inl rfl

theorem Orderly.step (hs : s.Orderly) (v : Event) : (s.step v).2.Orderly := by
  have hstep := step_cases hs v
  constructor
  · intro client session hsession
    rcases hstep.session hsession with ⟨-, -, -, hlt⟩ | ⟨old, hold, -⟩
    · exact hlt
    · exact Nat.lt_of_lt_of_le (hs.numbered client old hold) hstep.nextClient_le
  · intro client
    rcases duty_step hs v client with hsame | hlisten | hleave | hparams
    · rw [hsame]
      rcases hs.settled client with hlisten | hleave | hparams
      · exact .inl hlisten
      · exact .inr (.inl hleave)
      · rcases hstep.parameters? hs hparams with hkept | ⟨-, hidle⟩
        · exact .inr (.inr (hkept ▸ hparams))
        · exact or_assoc.1 (.inl hidle)
    · exact .inl hlisten
    · exact .inr (.inl hleave)
    · exact .inr (.inr hparams)

theorem run_orderly (hs : s.Orderly) (es : List Event) : (s.run es).Orderly := by
  induction es generalizing s with
  | nil => exact hs
  | cons v es ih => exact ih (hs.step v)

theorem run_rib (hs : s.Orderly) (es : List Event) :
    ∃ ws, (s.run es).responder.rib = s.responder.rib.run ws := by
  induction es generalizing s with
  | nil => exact ⟨[], rfl⟩
  | cons v es ih =>
    obtain ⟨ws, hws⟩ := (step_cases hs v).rib
    obtain ⟨ws', hws'⟩ := ih (hs.step v)
    exact ⟨ws ++ ws', by rw [Rib.run_append, ← hws]; exact hws'⟩

end Service

namespace Chronicle

theorem start_orderly (h : Chronicle) : h.start.Orderly := ⟨nofun, fun _ => .inl rfl⟩

theorem orderly (h : Chronicle) : h.service.Orderly := Service.run_orderly h.start_orderly h.events

/-- One event of a chronicle. -/
theorem stepped (h : Chronicle) (es : List Service.Event) (v : Service.Event) :
    Service.Stepped (h.before es).service v ((h.before es).service.presented? v)
      (h.before (es ++ [v])).responder := by
  rw [responder, service_concat]
  exact Service.step_cases (h.before es).orderly v

/-- The tables of a responder have a history. -/
theorem exists_history (h : Chronicle) : ∃ ws,
    h.responder.rib = (⟨h.config.allNetworkInstances, h.config.capacity, ws⟩ : History).rib :=
  Service.run_rib h.start_orderly h.events

theorem coherent (h : Chronicle) : h.responder.rib.Coherent := by
  obtain ⟨ws, hws⟩ := h.exists_history
  rw [hws]
  exact History.coherent _

end Chronicle

end RouteProgramming
