import RouteProgramming.Proofs.Responder.Election
import RouteProgramming.Proofs.Responder.Persistence
import RouteProgramming.Proofs.Responder.Rounds

/-! Agreement on parameters. Every session that is registered has settled its
parameters, all of them on the same ones, which are valid and supported; they
stay until the session ends. A session whose negotiation is turned down is never
registered: none of its own events, before the negotiation or after it, changes
what is registered, the primary id or the tables. -/

namespace RouteProgramming

/-- What is registered of a session. -/
structure Registration where
  params : Option Parameters
  electionId : Option ElectionId
deriving DecidableEq

namespace Responder

variable {r : Responder} {client other : ClientId} {params : Parameters}

/-- A session is registered once it has settled its parameters or has presented an election id. -/
def registered? (r : Responder) (client : ClientId) : Option Registration :=
  (r.sessions.get? client).bind fun session =>
    if session.params.isNone ∧ session.electionId.isNone then none else some ⟨session.params, session.electionId⟩

theorem registered?_congr {s : Responder} (h : s.sessions.get? client = r.sessions.get? client) :
    s.registered? client = r.registered? client := by
  rw [registered?, registered?, h]

theorem registered?_of_get?_none (h : r.sessions.get? client = none) : r.registered? client = none := by
  rw [registered?, h, Option.bind_none]

theorem parameters?_of_get?_none (h : r.sessions.get? client = none) : r.parameters? client = none := by
  rw [parameters?, h, Option.bind_none]

theorem disagreeing?_eq_none_iff : r.disagreeing? client params = none ↔
    ∀ c p, r.parameters? c = some p → c ≠ client → p = params := by
  rw [disagreeing?, Option.map_eq_none_iff, List.find?_eq_none]
  simp only [Prod.forall, mem_settled_iff]
  refine forall_congr' fun c => forall_congr' fun p => forall_congr' fun _ => ?_
  simp

/-! ### Agreement -/

/-- The sessions agree on parameters that are valid and supported. -/
structure Agreed (r : Responder) : Prop where
  settled : ∀ client session, r.sessions.get? client = some session → session.electionId.isSome → session.params.isSome
  valid : ∀ client params, r.parameters? client = some params → params.check = .ok ()
  supported : ∀ client params, r.parameters? client = some params → params.ackType = .ribAndFib →
    r.config.fibAckSupported
  agree : ∀ client other params others, r.parameters? client = some params →
    r.parameters? other = some others → params = others

theorem Agreed.registered (h : r.Agreed) {g : Registration} (hg : r.registered? client = some g) :
    ∃ params, g.params = some params ∧ r.parameters? client = some params := by
  obtain ⟨session, hsession, hif⟩ := Option.bind_eq_some_iff.1 hg
  split at hif
  case isTrue => contradiction
  case isFalse hsome =>
    obtain rfl := Option.some.inj hif
    have hparams : session.params.isSome := by
      cases hp : session.params with
      | some params => rfl
      | none =>
        have helection : session.electionId.isSome := by simpa [hp, Option.isSome_iff_ne_none] using hsome
        rw [← hp]
        exact h.settled client session hsession helection
    obtain ⟨params, hp⟩ := Option.isSome_iff_exists.1 hparams
    exact ⟨params, hp, by rw [parameters?, hsession, Option.bind_some, hp]⟩

end Responder

namespace Service

open Responder

variable {s : Service} {v : Event} {id? : Option (ClientId × ElectionId)} {r : Responder} {client : ClientId}
  {params : Parameters}

/-- The event settles these parameters for the session. -/
structure Settles (s : Service) (v : Event) (client : ClientId) (params : Parameters) : Prop where
  asked : ∃ request, v = .request client request
  valid : params.check = .ok ()
  supported : params.ackType = .ribAndFib → s.responder.config.fibAckSupported
  agreed : ∀ other p, s.responder.parameters? other = some p → other ≠ client → p = params

/-- A session is new, or has the parameters that it had before, or some that the event settles. -/
theorem Stepped.session_params {session : Session} (h : Stepped s v id? r)
    (hsession : r.sessions.get? client = some session) :
    (client = s.responder.nextClient ∧ session = {}) ∨
      (∃ old, s.responder.sessions.get? client = some old ∧ session.params = old.params) ∨
      ∃ params, session.params = some params ∧ s.Settles v client params := by
  cases h with
  | idle | flushed | changed => exact .inr (.inl ⟨session, hsession, rfl⟩)
  | connected =>
    rw [connect] at hsession
    dsimp only at hsession
    rw [Table.get?_insert] at hsession
    split at hsession
    case isTrue hnew => exact .inl ⟨hnew, (Option.some.inj hsession).symm⟩
    case isFalse => exact .inr (.inl ⟨session, hsession, rfl⟩)
  | deafened | presented | programmed =>
    obtain ⟨old, hold, rfl⟩ := session_of_updateSession hsession
    exact .inr (.inl ⟨old, hold, by split <;> rfl⟩)
  | @settled other request params fresh valid agreed supported =>
    obtain ⟨old, hold, rfl⟩ := session_of_updateSession hsession
    split
    case isTrue hclient =>
      subst hclient
      exact .inr (.inr ⟨params, rfl, ⟨request, rfl⟩, valid, supported, disagreeing?_eq_none_iff.1 agreed⟩)
    case isFalse => exact .inr (.inl ⟨old, hold, rfl⟩)
  | @closed _ other idle =>
    rw [disconnect_eq] at hsession
    dsimp only at hsession
    rw [Table.get?_erase] at hsession
    split at hsession
    · contradiction
    · exact .inr (.inl ⟨session, hsession, rfl⟩)

theorem Stepped.parameters?_before (h : Stepped s v id? r) (hp : r.parameters? client = some params) :
    s.responder.parameters? client = some params ∨ s.Settles v client params := by
  obtain ⟨session, hsession, hparams⟩ := Option.bind_eq_some_iff.1 hp
  rcases h.session_params hsession with ⟨-, rfl⟩ | ⟨old, hold, hsame⟩ | ⟨new, hnew, hsettled⟩
  · contradiction
  · exact .inl (Option.bind_eq_some_iff.2 ⟨old, hold, hsame ▸ hparams⟩)
  · obtain rfl := Option.some.inj (hnew.symm.trans hparams)
    exact .inr hsettled

theorem Stepped.presenter_settled {id : ElectionId} (h : Stepped s v (some (client, id)) r) :
    (s.responder.parameters? client).isSome := by
  cases h with
  | presented valid single =>
    obtain ⟨params, hparams, -⟩ := Option.map_eq_some_iff.1 single
    rw [hparams]
    rfl

theorem Stepped.config (h : Stepped s v id? r) : r.config = s.responder.config := by
  cases h with
  | closed => rw [disconnect_eq]
  | idle | connected | deafened | settled | presented | programmed | flushed | changed => rfl

/-- Who presents an election id has settled its parameters. -/
theorem Stepped.settled_of_electionId {session : Session} (hs : s.Orderly) (hr : s.responder.Agreed)
    (h : Stepped s v id? r) (hsession : r.sessions.get? client = some session)
    (presented : session.electionId.isSome) : session.params.isSome := by
  rcases h.session hsession with ⟨-, rfl, -, -⟩ | ⟨old, hold, hlatest⟩
  · contradiction
  · have hsettled : old.params.isSome := by
      rw [hlatest] at presented
      cases id? with
      | none => exact hr.settled client old hold presented
      | some p =>
        rw [latest] at presented
        split at presented
        case isTrue hclient =>
          subst hclient
          have hparams := h.presenter_settled
          rwa [Responder.parameters?, hold, Option.bind_some] at hparams
        case isFalse => exact hr.settled client old hold presented
    rcases h.session_params hsession with ⟨hnew, -⟩ | ⟨old', hold', hsame⟩ | ⟨params, hnew, -⟩
    · exact absurd (hs.numbered client old hold) (hnew ▸ Nat.lt_irrefl _)
    · obtain rfl := Option.some.inj (hold.symm.trans hold')
      rwa [hsame]
    · rw [hnew]
      rfl

theorem step_agreed (hs : s.Orderly) (hr : s.responder.Agreed) (v : Event) : (s.step v).2.responder.Agreed := by
  have hstep := step_cases hs v
  constructor
  case settled => exact fun client session => hstep.settled_of_electionId hs hr
  case valid =>
    intro client params hp
    rcases hstep.parameters?_before hp with hold | hnew
    · exact hr.valid client params hold
    · exact hnew.valid
  case supported =>
    intro client params hp
    rw [hstep.config]
    rcases hstep.parameters?_before hp with hold | hnew
    · exact hr.supported client params hold
    · exact hnew.supported
  case agree =>
    intro client other params others hp ho
    by_cases hclient : client = other
    · subst hclient
      exact Option.some.inj (hp.symm.trans ho)
    rcases hstep.parameters?_before hp with hold | hnew
    · rcases hstep.parameters?_before ho with hold' | hnew'
      · exact hr.agree client other params others hold hold'
      · exact hnew'.agreed client params hold hclient
    · rcases hstep.parameters?_before ho with hold' | hnew'
      · exact (hnew.agreed other others hold' (Ne.symm hclient)).symm
      · -- an event settles the parameters of one session at most
        obtain ⟨request, rfl⟩ := hnew.asked
        obtain ⟨request', hsame⟩ := hnew'.asked
        exact absurd (Event.request.inj hsame).1 hclient

theorem run_agreed (hs : s.Orderly) (hr : s.responder.Agreed) (es : List Event) : (s.run es).responder.Agreed := by
  induction es generalizing s with
  | nil => exact hr
  | cons v es ih => exact ih (hs.step v) (step_agreed hs hr v)

theorem run_config (hs : s.Orderly) (es : List Event) : (s.run es).responder.config = s.responder.config := by
  induction es generalizing s with
  | nil => rfl
  | cons v es ih => exact (ih (hs.step v)).trans (step_cases hs v).config

/-! ### A session from its first request on -/

/-- A session has settled nothing before its first request; after it, while it is open, it has settled its
parameters or is about to leave. -/
structure Begun (s : Service) (client : ClientId) (ts : List Round) : Prop where
  before : ts = [] → s.responder.parameters? client = none ∧ s.duty client = .listen
  past : ts ≠ [] → client < s.responder.nextClient
  since : ts ≠ [] → s.responder.isOpen client → (s.responder.parameters? client).isSome ∨ s.duty client = .leave

theorem parameters?_deafen (r : Responder) (client other : ClientId) :
    (r.deafen client).parameters? other = r.parameters? other := by
  rw [Responder.parameters?, Responder.parameters?, deafen, get?_updateSession]
  split
  case isTrue h => rw [h]; cases r.sessions.get? client <;> rfl
  case isFalse => rfl

theorem Stepped.isOpen_before (h : Stepped s v id? r) (past : client < s.responder.nextClient)
    (hopen : r.isOpen client) : s.responder.isOpen client := by
  rw [← Bool.not_eq_false]
  intro hclosed
  rw [h.stays_closed past hclosed] at hopen
  contradiction

/-- Nothing is settled before the first request. -/
theorem Idled.unsettled {t : Service} (h : Idled s client v t) (fresh : s.responder.parameters? client = none)
    (listening : s.duty client = .listen) : t.responder.parameters? client = none ∧ t.duty client = .listen := by
  cases h with
  | connected new =>
    refine ⟨?_, listening⟩
    rw [Responder.parameters?, connect, new]
    dsimp only
    rw [Table.get?_insert_self]
    rfl
  | same => exact ⟨fresh, listening⟩
  | closed => exact ⟨parameters?_of_get?_none (get?_close s client), duty_close s client⟩
  | deafened => exact ⟨(parameters?_deafen ..).trans fresh, listening⟩

/-- Once a session has taken a request, it keeps its parameters, and if it is about to leave, nothing else. -/
theorem Begun.kept {ts : List Round} (hs : s.Orderly) (hb : Begun s client ts) (hts : ts ≠ []) (v : Event)
    (hopen : (s.step v).2.responder.isOpen client) :
    (s.step v).2.responder.parameters? client = s.responder.parameters? client ∧
      ((s.responder.parameters? client).isSome ∨ (s.step v).2.duty client = .leave) := by
  have hstep := step_cases hs v
  rcases hb.since hts (hstep.isOpen_before (hb.past hts) hopen) with hsettled | hleave
  · refine ⟨(hstep.parameters? hs hsettled).resolve_right fun hnone => ?_, .inl hsettled⟩
    rw [isOpen, Table.contains, hnone.1] at hopen
    contradiction
  · by_cases own : s.session? v = some client
    · have hfinished : Finished s client := ⟨hb.past hts, fun _ => hleave, .inr hleave⟩
      have hidled := (hfinished.step_idled own).2
      generalize (s.step v).2 = t at hidled hopen
      cases hidled with
      | connected new => exact absurd (hb.past hts) (new ▸ Nat.lt_irrefl _)
      | same => exact ⟨rfl, .inr hleave⟩
      | closed =>
        rw [not_isOpen_close] at hopen
        contradiction
      | deafened => exact ⟨parameters?_deafen .., .inr hleave⟩
    · have hunmoved := step_unmoved own
      exact ⟨parameters?_of_unmoved hunmoved, .inr (hunmoved.duty.trans hleave)⟩

theorem Begun.step {ts : List Round} (hs : s.Orderly) (hb : Begun s client ts) (v : Event) :
    Begun (s.step v).2 client (s.record client ts v) := by
  have hstep := step_cases hs v
  by_cases own : s.session? v = some client
  · by_cases taken : ∃ request, v = .request client request ∧ s.Ready client
    · obtain ⟨request, rfl, hready⟩ := taken
      have hrecord : s.record client ts (.request client request) ≠ [] := by
        rw [record, if_pos ⟨rfl, hready⟩]
        exact List.cons_ne_nil _ _
      obtain ⟨session, hsession⟩ := Table.contains_iff.1 hready.1
      refine ⟨fun hnil => absurd hnil hrecord, fun _ => ?_, fun _ _ => ?_⟩
      · exact Nat.lt_of_lt_of_le (hs.numbered client session hsession) hstep.nextClient_le
      · rw [step_of_ready hready, duty_conclude, if_pos rfl, responder_conclude]
        cases hp : (s.responder.settle client request.params).refusal with
        | none => exact .inl ((settle_cases ..).parameters? hready.1 hp)
        | some e => exact .inr rfl
    · have quiet : ∀ request, v = .request client request → ¬s.Ready client :=
        fun request hv hready => taken ⟨request, hv, hready⟩
      have hnil (h : s.record client ts v ≠ []) : ts ≠ [] := fun hts => h (hts ▸ record_nil quiet)
      refine ⟨fun h => ?_, fun h => ?_, fun h hopen => ?_⟩
      · have hts : ts = [] := Classical.byContradiction fun hts => record_ne_nil hts v h
        obtain ⟨fresh, listening⟩ := hb.before hts
        exact (step_idled own (.inl listening) quiet).2.unsettled fresh listening
      · exact Nat.lt_of_lt_of_le (hb.past (hnil h)) hstep.nextClient_le
      · obtain ⟨hsame, hrest⟩ := hb.kept hs (hnil h) v hopen
        rwa [hsame]
  · have hunmoved := step_unmoved own
    rw [record_of_other own]
    refine ⟨fun hnil => ?_, fun hts => Nat.lt_of_lt_of_le (hb.past hts) hstep.nextClient_le, fun hts hopen => ?_⟩
    · rw [parameters?_of_unmoved hunmoved, hunmoved.duty]
      exact hb.before hnil
    · rw [parameters?_of_unmoved hunmoved, hunmoved.duty]
      exact hb.since hts (isOpen_of_unmoved hunmoved ▸ hopen)

theorem Begun.run {ts : List Round} (hs : s.Orderly) (hb : Begun s client ts) (es : List Event) :
    Begun (s.run es) client (s.rounds client ts es) := by
  induction es generalizing s ts with
  | nil => exact hb
  | cons v es ih => exact ih (hs.step v) (hb.step hs v)

/-! ### A session that is turned down -/

/-- Nothing that counts has changed: what is registered, the primary id and the tables. -/
structure Untouched (r t : Responder) : Prop where
  registered : ∀ client, t.registered? client = r.registered? client
  primary : t.primary = r.primary
  rib : t.rib = r.rib

theorem registered?_of_unsettled (hr : s.responder.Agreed) (fresh : s.responder.parameters? client = none) :
    s.responder.registered? client = none := by
  refine Option.eq_none_iff_forall_ne_some.2 fun g hg => ?_
  obtain ⟨params, -, hparams⟩ := hr.registered hg
  rw [fresh] at hparams
  contradiction

/-- Whatever a session does that has settled nothing, it touches nothing. -/
theorem Idled.untouched {t : Service} (hr : s.responder.Agreed) (h : Idled s client v t)
    (fresh : s.responder.parameters? client = none) : Untouched s.responder t.responder := by
  have hunregistered := registered?_of_unsettled hr fresh
  cases h with
  | connected new =>
    subst new
    refine ⟨fun other => ?_, rfl, rfl⟩
    by_cases hother : other = s.responder.nextClient
    · subst hother
      rw [hunregistered, registered?, connect]
      dsimp only
      rw [Table.get?_insert_self]
      rfl
    · exact registered?_congr (Table.get?_insert_of_ne _ _ hother)
  | same => exact ⟨fun _ => rfl, rfl, rfl⟩
  | closed =>
    refine ⟨fun other => ?_, ?_, ?_⟩
    · by_cases hother : other = client
      · subst hother
        rw [hunregistered, registered?_of_get?_none (get?_close s other)]
      · exact registered?_congr (get?_disconnect_of_ne _ hother)
    · rw [close, disconnect_eq]
    · rcases s.responder.rib_disconnect_cases client with ⟨-, hsame⟩ | ⟨⟨params, hparams, -⟩, -⟩
      · exact hsame
      · rw [fresh] at hparams
        contradiction
  | deafened =>
    refine ⟨fun other => ?_, rfl, rfl⟩
    by_cases hother : other = client
    · subst hother
      rw [registered?, registered?, deafen, get?_updateSession, if_pos rfl]
      cases s.responder.sessions.get? other <;> rfl
    · exact registered?_congr ((get?_updateSession ..).trans (if_neg hother))

theorem settle_of_refused {r : Responder} {params : Option Parameters} {e : Refusal}
    (fresh : r.parameters? client = none) (refused : r.negotiate client (params.getD {}) = .error e) :
    (r.settle client params).state = r ∧ (r.settle client params).refusal.isSome := by
  have hfresh : ((r.sessions.get? client).bind (·.params)).isNone = true := Option.isNone_iff_eq_none.2 fresh
  unfold settle
  dsimp only
  rw [hfresh]
  cases params with
  | none =>
    have hdefault : r.negotiate client {} = .error e := refused
    dsimp only
    rw [hdefault]
    exact ⟨rfl, rfl⟩
  | some params =>
    have hexplicit : r.negotiate client params = .error e := refused
    dsimp only
    rw [hexplicit]
    dsimp only
    rw [respond]
    split <;> exact ⟨rfl, rfl⟩

/-- The session is finished without ever having settled its parameters. -/
structure Barred (s : Service) (client : ClientId) : Prop extends Finished s client where
  unsettled : s.responder.parameters? client = none

theorem Barred.step (hs : s.Orderly) (hb : Barred s client) (v : Event) : Barred (s.step v).2 client := by
  refine ⟨hb.toFinished.step hs v, ?_⟩
  by_cases own : s.session? v = some client
  · have hidled := (hb.step_idled own).2
    generalize (s.step v).2 = t at hidled
    cases hidled with
    | connected new => exact absurd hb.past (new ▸ Nat.lt_irrefl _)
    | same => exact hb.unsettled
    | closed => exact parameters?_of_get?_none (get?_close s client)
    | deafened => exact (parameters?_deafen ..).trans hb.unsettled
  · exact (parameters?_of_unmoved (step_unmoved own)).trans hb.unsettled

theorem Barred.run (hs : s.Orderly) (hb : Barred s client) (es : List Event) : Barred (s.run es) client := by
  induction es generalizing s with
  | nil => exact hb
  | cons v es ih => exact ih (hs.step v) (hb.step hs v)

/-- A first request that is turned down changes nothing but what its session does next. -/
theorem step_of_rejected {request : ModifyRequest} {e : Refusal} (hs : s.Orderly) (ready : s.Ready client)
    (fresh : s.responder.parameters? client = none)
    (refused : s.responder.negotiate client (request.params.getD {}) = .error e) :
    (s.step (.request client request)).2.responder = s.responder ∧
      Barred (s.step (.request client request)).2 client := by
  obtain ⟨hstate, hrefusal⟩ := settle_of_refused fresh refused
  have hresponder : (s.step (.request client request)).2.responder = s.responder := by
    rw [step_of_ready ready, responder_conclude, hstate]
  have hleave : (s.step (.request client request)).2.duty client = .leave := by
    obtain ⟨e', he'⟩ := Option.isSome_iff_exists.1 hrefusal
    rw [step_of_ready ready, duty_conclude, if_pos rfl, he']
    rfl
  obtain ⟨session, hsession⟩ := Table.contains_iff.1 ready.1
  have hpast : client < (s.step (.request client request)).2.responder.nextClient := by
    rw [hresponder]
    exact hs.numbered client session hsession
  exact ⟨hresponder, ⟨hpast, fun _ => hleave, .inr hleave⟩, by rw [hresponder, fresh]⟩

end Service

namespace Chronicle

open Service

variable {h : Chronicle} {client : ClientId}

theorem agreed (h : Chronicle) : h.responder.Agreed := by
  have hnone (client : ClientId) : h.start.responder.sessions.get? client = none := rfl
  have hstart : h.start.responder.Agreed := by
    constructor
    case settled => intro client session hsession; rw [hnone] at hsession; contradiction
    case valid | supported =>
      intro client params hp
      rw [Responder.parameters?_of_get?_none (hnone client)] at hp
      contradiction
    case agree =>
      intro client other params others hp
      rw [Responder.parameters?_of_get?_none (hnone client)] at hp
      contradiction
  exact run_agreed h.start_orderly hstart h.events

theorem begun (h : Chronicle) (client : ClientId) : Begun h.service client (h.rounds client) := by
  have hstart : Begun h.start client [] := ⟨fun _ => ⟨rfl, rfl⟩, fun hne => absurd rfl hne, fun hne => absurd rfl hne⟩
  exact hstart.run h.start_orderly h.events

/-- The parameters of a session stay from its first request on. -/
theorem parameters?_kept {es fs : List Event} (begun : (h.before es).rounds client ≠ [])
    (hopen : (h.before (es ++ fs)).responder.isOpen client) :
    (h.before (es ++ fs)).responder.parameters? client = (h.before es).responder.parameters? client := by
  induction fs using List.reverseRecOn with
  | nil => rw [List.append_nil]
  | append_singleton fs v ih =>
    rw [← List.append_assoc] at hopen ⊢
    have hrounds : (h.before (es ++ fs)).rounds client ≠ [] := fun hnil =>
      begun (rounds_eq_nil (List.prefix_append es fs) hnil)
    have hbegun := (h.before (es ++ fs)).begun client
    have hbefore := (h.stepped (es ++ fs) v).isOpen_before (hbegun.past hrounds) hopen
    rw [responder, service_concat] at hopen ⊢
    exact (hbegun.kept (h.before (es ++ fs)).orderly hrounds v hopen).1.trans (ih hbefore)

/-- The parameters of a session, its own or the default ones, are turned down at its first request. -/
def Rejected (h : Chronicle) (client : ClientId) : Prop :=
  ∃ es request fs e, h.events = es ++ .request client request :: fs ∧ (h.before es).service.Ready client ∧
    (h.before es).rounds client = [] ∧
    (h.before es).responder.negotiate client (request.params.getD {}) = .error e

/-- Of two events in a list one is the earlier one, or they are the same. -/
theorem eq_append_cons_cases {es ds fs gs : List Event} {v w : Event} (h : es ++ v :: fs = ds ++ w :: gs) :
    (∃ as, ds = es ++ v :: as) ∨ (es = ds ∧ v = w) ∨ ∃ as, es = ds ++ w :: as := by
  rcases List.append_eq_append_iff.1 h with ⟨as, rfl, has⟩ | ⟨as, rfl, has⟩
  · cases as with
    | nil =>
      obtain ⟨rfl, -⟩ := List.cons.inj has
      exact .inr (.inl ⟨(List.append_nil es).symm, rfl⟩)
    | cons u as =>
      obtain ⟨rfl, -⟩ := List.cons.inj has
      exact .inl ⟨as, rfl⟩
  · cases as with
    | nil =>
      obtain ⟨rfl, -⟩ := List.cons.inj has
      exact .inr (.inl ⟨List.append_nil ds, rfl⟩)
    | cons u as =>
      obtain ⟨rfl, -⟩ := List.cons.inj has
      exact .inr (.inr ⟨as, rfl⟩)

/-- A session that has not begun after one of its events has not touched anything by it. -/
theorem untouched_of_rounds_eq_nil {es : List Event} {v : Event}
    (own : (h.before es).service.session? v = some client) (unbegun : (h.before (es ++ [v])).rounds client = []) :
    Untouched (h.before es).responder (h.before (es ++ [v])).responder := by
  have hbefore : (h.before es).rounds client = [] := rounds_eq_nil (List.prefix_append ..) unbegun
  obtain ⟨fresh, listening⟩ := ((h.before es).begun client).before hbefore
  have quiet : ∀ request, v = .request client request → ¬(h.before es).service.Ready client := by
    rintro request rfl hready
    rw [rounds_concat, record, if_pos ⟨rfl, hready⟩] at unbegun
    contradiction
  rw [responder, responder, service_concat]
  exact (step_idled own (.inl listening) quiet).2.untouched (h.before es).agreed fresh

theorem untouched_of_rejected (rejected : h.Rejected client) {es fs : List Event} {v : Event}
    (hevents : h.events = es ++ v :: fs) (own : (h.before es).service.session? v = some client) :
    Untouched (h.before es).responder (h.before (es ++ [v])).responder := by
  obtain ⟨ds, request, gs, e, hsplit, ready, hnone, refused⟩ := rejected
  have hfresh := (((h.before ds).begun client).before hnone).1
  obtain ⟨hsame, hbarred⟩ := step_of_rejected (h.before ds).orderly ready hfresh refused
  rcases eq_append_cons_cases (hevents.symm.trans hsplit) with ⟨as, rfl⟩ | ⟨rfl, rfl⟩ | ⟨as, rfl⟩
  · -- the session has not begun
    refine untouched_of_rounds_eq_nil own (rounds_eq_nil ⟨as, ?_⟩ hnone)
    rw [List.append_assoc]
    rfl
  · have hresponder : (h.before (es ++ [.request client request])).responder = (h.before es).responder := by
      rw [responder, service_concat]
      exact hsame
    rw [hresponder]
    exact ⟨fun _ => rfl, rfl, rfl⟩
  · -- it has been turned down
    have hlater : Barred (h.before (ds ++ .request client request :: as)).service client := by
      have hservice : (h.before (ds ++ .request client request :: as)).service =
          ((h.before ds).service.step (.request client request)).2.run as := run_append ..
      rw [hservice]
      exact hbarred.run ((h.before ds).orderly.step _) as
    rw [responder, responder, service_concat]
    exact (hlater.step_idled own).2.untouched (h.before _).agreed hlater.unsettled

/-- Whoever is registered has settled its parameters, the same ones as everybody else, and these are valid and
supported; a session keeps them from its first request on; and a session that is turned down then has never
touched what is registered, the primary id or the tables. -/
theorem parameters_agreed (h : Chronicle) :
    (∀ client g, h.responder.registered? client = some g → ∃ params, g.params = some params ∧
      params.check = .ok () ∧ (params.persistence = .preserve → params.redundancy = .singleElectedPrimary) ∧
      (params.ackType = .ribAndFib → h.config.fibAckSupported)) ∧
    (∀ client other g g', h.responder.registered? client = some g → h.responder.registered? other = some g' →
      g.params = g'.params) ∧
    (∀ es fs, h.events = es ++ fs → ∀ client, (h.before es).rounds client ≠ [] → h.responder.isOpen client →
      h.responder.parameters? client = (h.before es).responder.parameters? client) ∧
    (∀ client, h.Rejected client → ∀ es v fs, h.events = es ++ v :: fs →
      (h.before es).service.session? v = some client →
      Untouched (h.before es).responder (h.before (es ++ [v])).responder) := by
  have hconfig : h.responder.config = h.config := run_config h.start_orderly h.events
  refine ⟨fun client g hg => ?_, fun client other g g' hg hg' => ?_, fun es fs hevents client begun hopen => ?_,
    fun client rejected es v fs => untouched_of_rejected rejected⟩
  · obtain ⟨params, hparams, hsettled⟩ := h.agreed.registered hg
    have hvalid := h.agreed.valid client params hsettled
    refine ⟨params, hparams, hvalid, fun hpreserve => ?_, hconfig ▸ h.agreed.supported client params hsettled⟩
    rw [Parameters.check] at hvalid
    split at hvalid
    case isTrue => contradiction
    case isFalse hnot => exact Classical.byContradiction fun hsingle => hnot ⟨hpreserve, hsingle⟩
  · obtain ⟨params, hparams, hsettled⟩ := h.agreed.registered hg
    obtain ⟨others, hothers, hsettled'⟩ := h.agreed.registered hg'
    rw [hparams, hothers, h.agreed.agree client other params others hsettled hsettled']
  · have hself : h.before (es ++ fs) = h := by rw [← hevents]; rfl
    have hkept := parameters?_kept begun (by rw [hself]; exact hopen)
    rwa [hself] at hkept

/-! ### An example -/

/-- One client holds an election, and the next one goes by the default parameters. -/
def dissent : Chronicle where
  config := {}
  events :=
    .connect :: .connect :: (.request 1 { params := some elective } :: Service.turns 1 2) ++
      (.request 2 { operations := [writeNextHop none] } :: Service.turns 2 2)

/-- The first client keeps the parameters on which it has settled, and the second one is turned down. -/
theorem parameters_agreed_dissent :
    dissent.responder.registered? 1 = some ⟨some elective, none⟩ ∧ elective.check = .ok () ∧
    dissent.Rejected 2 ∧
    Untouched (dissent.before (dissent.events.take 5)).responder
      (dissent.before (dissent.events.take 5 ++ [.request 2 { operations := [writeNextHop none] }])).responder ∧
    (dissent.before (dissent.events.take 3)).rounds 1 ≠ [] ∧ dissent.responder.isOpen 1 ∧
    dissent.responder.parameters? 1 = (dissent.before (dissent.events.take 3)).responder.parameters? 1 := by
  have hregistered : dissent.responder.registered? 1 = some ⟨some elective, none⟩ := by decide +kernel
  have hevents : dissent.events = dissent.events.take 5 ++
      .request 2 { operations := [writeNextHop none] } :: dissent.events.drop 6 := rfl
  have hrejected : dissent.Rejected 2 :=
    ⟨_, _, _, .disagreement {} elective, hevents, by decide +kernel, rfl, rfl⟩
  have hagreed := dissent.parameters_agreed
  obtain ⟨params, hparams, hvalid, -⟩ := hagreed.1 1 _ hregistered
  obtain rfl := Option.some.inj hparams
  have hbegun : (dissent.before (dissent.events.take 3)).rounds 1 ≠ [] := List.cons_ne_nil _ _
  have hopen : dissent.responder.isOpen 1 := by decide +kernel
  exact ⟨hregistered, hvalid, hrejected, hagreed.2.2.2 2 hrejected _ _ _ hevents rfl, hbegun, hopen,
    hagreed.2.2.1 _ (dissent.events.drop 3) rfl 1 hbegun hopen⟩

end Chronicle

end RouteProgramming
