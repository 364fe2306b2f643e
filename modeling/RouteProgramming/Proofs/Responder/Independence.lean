import RouteProgramming.Proofs.Responder.Conversation
import RouteProgramming.Proofs.Responder.Persistence
import RouteProgramming.Proofs.Rib.Locality

/-! Sessions that go about different network instances. What a session can see
of the responder is its own state, the election, and the tables of the network
instances that its batches are for. Its own turns depend on nothing else, and the
turns of a session with other network instances change nothing of it, so that
two such sessions come to the same in whatever order their turns are taken. The
end of a session is different: it reaches into every network instance. -/

namespace RouteProgramming

/-- A list that has the members of two others, those of each in their order. -/
inductive Interleaving {α : Type} : List α → List α → List α → Prop
  | nil : Interleaving [] [] []
  | left {x : α} {xs ys zs : List α} (rest : Interleaving xs ys zs) : Interleaving (x :: xs) ys (x :: zs)
  | right {y : α} {xs ys zs : List α} (rest : Interleaving xs ys zs) : Interleaving xs (y :: ys) (y :: zs)

namespace Interleaving

variable {α : Type} {xs ys zs : List α}

theorem symm (h : Interleaving xs ys zs) : Interleaving ys xs zs := by
  induction h with
  | nil => exact .nil
  | left _ ih => exact .right ih
  | right _ ih => exact .left ih

theorem right_only (ys : List α) : Interleaving [] ys ys := by
  induction ys with
  | nil => exact .nil
  | cons y ys ih => exact .right ih

theorem append (xs ys : List α) : Interleaving xs ys (xs ++ ys) := by
  induction xs with
  | nil => exact right_only ys
  | cons x xs ih => exact .left ih

end Interleaving

variable {S T : String → Prop}

namespace Responder

variable {r s : Responder} {client : ClientId} {os : List Operation}

/-- A session that goes about some network instances cannot tell two responders apart. -/
structure AlikeTo (S : String → Prop) (client : ClientId) (r s : Responder) : Prop where
  rib : r.rib.AgreeOn S s.rib
  session : r.sessions.get? client = s.sessions.get? client
  primary : r.primary = s.primary

theorem AlikeTo.trans {t : Responder} (h : AlikeTo S client r s) (h' : AlikeTo S client s t) : AlikeTo S client r t :=
  ⟨h.rib.trans h'.rib, h.session.trans h'.session, h.primary.trans h'.primary⟩

theorem AlikeTo.symm (h : AlikeTo S client r s) : AlikeTo S client s r := ⟨h.rib.symm, h.session.symm, h.primary.symm⟩

theorem AlikeTo.context (h : AlikeTo S client r s) : r.context client = s.context client := by
  rw [Responder.context, Responder.context, h.session, h.primary]

theorem AlikeTo.hears (h : AlikeTo S client r s) : r.hears client = s.hears client := by
  rw [Responder.hears, Responder.hears, h.session]

theorem AlikeTo.isOpen (h : AlikeTo S client r s) : r.isOpen client = s.isOpen client := by
  rw [Responder.isOpen, Responder.isOpen, Table.contains, Table.contains, h.session]

/-! ### Own turns -/

theorem AlikeTo.program (h : AlikeTo S client r s) (hos : ∀ o ∈ os, S o.networkInstance) :
    (r.program client os).1 = (s.program client os).1 ∧
      AlikeTo S client (r.program client os).2 (s.program client os).2 := by
  obtain ⟨hacks, hcontext, hrib⟩ := h.rib.applyBatch hos (r.context client)
  rw [Responder.program, Responder.program, ← h.context]
  refine ⟨hacks, hrib, ?_, h.primary⟩
  dsimp only
  rw [get?_updateSession, get?_updateSession, if_pos rfl, if_pos rfl, hcontext]
  exact congrArg (Option.map _) h.session

/-- Two stages that a session cannot tell apart. -/
structure Progress.AlikeTo (S : String → Prop) (client : ClientId) (p q : Progress) : Prop where
  state : Responder.AlikeTo S client p.state q.state
  responses : p.responses = q.responses
  refusal : p.refusal = q.refusal

theorem AlikeTo.respond (h : AlikeTo S client r s) (m : ModifyResponse) :
    (r.respond client m).AlikeTo S client (s.respond client m) := by
  rw [Responder.respond, Responder.respond, h.hears]
  split <;> exact ⟨h, rfl, rfl⟩

theorem AlikeTo.runBatch (h : AlikeTo S client r s) (hos : ∀ o ∈ os, S o.networkInstance) :
    (r.runBatch client os).AlikeTo S client (s.runBatch client os) := by
  cases os with
  | nil => exact ⟨h, rfl, rfl⟩
  | cons o os =>
    obtain ⟨hacks, hafter⟩ := h.program hos
    have hanswer := hafter.respond { results := (r.program client (o :: os)).1 }
    rw [Responder.runBatch, Responder.runBatch]
    · dsimp only
      rw [← hacks]
      exact hanswer
    · exact List.cons_ne_nil _ _
    · exact List.cons_ne_nil _ _

/-- Later requests without parameters go straight to the next stage. -/
theorem settle_none (settled : (r.parameters? client).isSome) : r.settle client none = { state := r } := by
  unfold settle
  dsimp only
  rw [parameters?] at settled
  rw [Option.isNone_eq_false_iff.2 settled]

theorem AlikeTo.disconnect (h : AlikeTo S client r s) : (r.disconnect client).rib.AgreeOn S (s.disconnect client).rib := by
  have hparams : r.parameters? client = s.parameters? client := by
    rw [parameters?, parameters?, h.session]
  rcases r.rib_disconnect_cases client with ⟨hpreserve, same⟩ | ⟨⟨params, hsome, hdelete⟩, removed⟩
  · rcases s.rib_disconnect_cases client with ⟨-, same'⟩ | ⟨⟨params, hsome, hdelete⟩, -⟩
    · rw [same, same']
      exact h.rib
    · rw [hpreserve params (hparams.trans hsome)] at hdelete
      contradiction
  · rcases s.rib_disconnect_cases client with ⟨hpreserve, -⟩ | ⟨-, removed'⟩
    · rw [hpreserve params (hparams.symm.trans hsome)] at hdelete
      contradiction
    · rw [removed, removed']
      exact h.rib.removeOwnedBy client

/-! ### Turns of others -/

theorem runBatch_confined (working : r.rib.plane.failures = 0) (hos : ∀ o ∈ os, S o.networkInstance)
    (client : ClientId) :
    r.rib.AgreeOn (¬S ·) (r.runBatch client os).state.rib ∧ (r.runBatch client os).state.primary = r.primary := by
  rcases r.runBatch_cases client os with same | same
  · rw [same]
    exact ⟨.refl working, rfl⟩
  · rw [same]
    exact ⟨Rib.applyBatch_agreeOn working hos _, rfl⟩

end Responder

/-- What is left to do is for some network instances only. -/
def Duty.Within (S : String → Prop) : Duty → Prop
  | .listen | .leave => True
  | .elect id? operations => id? = none ∧ ∀ o ∈ operations, S o.networkInstance
  | .program operations => ∀ o ∈ operations, S o.networkInstance

namespace Service

open Responder

variable {s t : Service} {client other : ClientId} {v : Event} {p q : Progress}

/-! ### Going about batches -/

/-- An event of a session that only programs batches for some network instances. -/
inductive BatchEvent (client : ClientId) (S : String → Prop) : Event → Prop
  | request {request : ModifyRequest} (params : request.params = none) (election : request.electionId = none)
    (targets : ∀ o ∈ request.operations, S o.networkInstance) : BatchEvent client S (.request client request)
  | proceed : BatchEvent client S (.proceed client)

/-- A session that only programs batches for some network instances. -/
structure Batching (S : String → Prop) (s : Service) (client : ClientId) : Prop where
  duty : (s.duty client).Within S
  settled : s.responder.isOpen client → (s.responder.parameters? client).isSome

theorem Batching.of_unmoved (hb : Batching S s client) (hu : Unmoved s t client) : Batching S t client := by
  constructor
  · rw [hu.duty]
    exact hb.duty
  · rw [isOpen_of_unmoved hu, parameters?_of_unmoved hu]
    exact hb.settled

theorem step_batch (hb : Batching S s client) (ready : s.Ready client) {request : ModifyRequest}
    (params : request.params = none) (election : request.electionId = none) :
    s.step (.request client request) = s.conclude client { state := s.responder } (.elect none request.operations) := by
  rw [step_of_ready ready, params, election, settle_none (hb.settled ready.1)]

theorem step_elect_none {operations : List Operation} (turn : s.duty client = .elect none operations) :
    s.step (.proceed client) = s.conclude client { state := s.responder } (.program operations) := by
  rw [step, turn]
  rfl

/-! ### Own turns -/

/-- A session cannot tell two services apart. -/
structure Sees (S : String → Prop) (client : ClientId) (s t : Service) : Prop where
  responder : AlikeTo S client s.responder t.responder
  duty : s.duty client = t.duty client

theorem Sees.refl (working : s.responder.rib.plane.failures = 0) : Sees S client s s :=
  ⟨⟨.refl working, rfl, rfl⟩, rfl⟩

theorem Sees.trans {u : Service} (h : Sees S client s t) (h' : Sees S client t u) : Sees S client s u :=
  ⟨h.responder.trans h'.responder, h.duty.trans h'.duty⟩

theorem Sees.symm (h : Sees S client s t) : Sees S client t s := ⟨h.responder.symm, h.duty.symm⟩

theorem Sees.unmoved (h : Sees S client s t) : Unmoved s t client := ⟨h.duty.symm, h.responder.session.symm⟩

theorem Sees.ready_iff (h : Sees S client s t) : s.Ready client ↔ t.Ready client := by
  rw [Ready, Ready, h.responder.isOpen, h.duty]

theorem conclude_alike (h : p.AlikeTo S client q) (s t : Service) (next : Duty) :
    (s.conclude client p next).1 = (t.conclude client q next).1 ∧
      Sees S client (s.conclude client p next).2 (t.conclude client q next).2 := by
  refine ⟨?_, ?_, ?_⟩
  · rw [Service.conclude, Service.conclude, h.refusal, h.responses, h.state.hears]
    split <;> rfl
  · rw [responder_conclude, responder_conclude]
    exact h.state
  · rw [duty_conclude, duty_conclude, if_pos rfl, if_pos rfl, h.refusal]

theorem Sees.close (h : Sees S client s t) : Sees S client (s.close client) (t.close client) := by
  refine ⟨⟨?_, ?_, ?_⟩, ?_⟩
  · exact h.responder.disconnect
  · rw [get?_close, get?_close]
  · rw [Service.close, Service.close, disconnect_eq s.responder, disconnect_eq t.responder]
    exact h.responder.primary
  · rw [duty_close, duty_close]

/-- What a session is told at its own turns, and what it sees after them, depends on what it sees. -/
theorem Sees.own_step (h : Sees S client s t) (hb : Batching S s client) (hv : BatchEvent client S v) :
    (s.step v).1 = (t.step v).1 ∧ Sees S client (s.step v).2 (t.step v).2 := by
  have hsame : Progress.AlikeTo S client { state := s.responder } { state := t.responder } :=
    ⟨h.responder, rfl, rfl⟩
  cases hv with
  | @request request params election targets =>
    by_cases ready : s.Ready client
    · have ready' := h.ready_iff.1 ready
      rw [step_batch hb ready params election, step_batch (hb.of_unmoved h.unmoved) ready' params election]
      exact conclude_alike hsame s t _
    · have hstep : s.step (.request client request) = ([], s) := if_neg ready
      have hstep' : t.step (.request client request) = ([], t) := if_neg fun ready' => ready (h.ready_iff.2 ready')
      rw [hstep, hstep']
      exact ⟨rfl, h⟩
  | proceed =>
    have hwithin := hb.duty
    cases hduty : s.duty client with
    | listen =>
      rw [step, step, ← h.duty, hduty]
      exact ⟨rfl, h⟩
    | elect id? operations =>
      rw [hduty] at hwithin
      obtain ⟨rfl, -⟩ := hwithin
      rw [step_elect_none hduty, step_elect_none (h.duty ▸ hduty)]
      exact conclude_alike hsame s t _
    | program operations =>
      rw [hduty] at hwithin
      rw [step, step, ← h.duty, hduty]
      exact conclude_alike (h.responder.runBatch hwithin) s t _
    | leave =>
      rw [step, step, ← h.duty, hduty]
      exact ⟨rfl, h.close⟩

/-! ### What a turn keeps and leaves alone -/

/-- A session that only programs batches for some network instances, and that takes along nothing elsewhere when it
ends: its client takes responses, so that it does not end, or its entries stay, or they are all in these. -/
structure Contained (S : String → Prop) (s : Service) (client : ClientId) : Prop extends Batching S s client where
  ends : s.responder.Attends client true ∧ s.duty client ≠ .leave ∨
    ∀ params, s.responder.parameters? client = some params → params.persistence = .delete →
      s.responder.rib.OwnedWithin S client

instance (r : Responder) (client : ClientId) (settled : Bool) : Decidable (r.Attends client settled) :=
  decidable_of_iff ((r.sessions.get? client).any fun session => session.listening && session.params.isSome == settled)
    (by simp [Attends, Option.any_eq_true])

/-- A session that waits for a request and whose client takes responses does not end. -/
theorem Contained.of_attends (idle : s.duty client = .listen) (attends : s.responder.Attends client true) :
    Contained S s client := by
  refine ⟨⟨?_, fun _ => ?_⟩, .inl ⟨attends, ?_⟩⟩
  · rw [idle]
    trivial
  · obtain ⟨session, hsession, -, hsettled⟩ := attends
    rw [Responder.parameters?, hsession]
    exact hsettled
  · rw [idle]
    exact (Duty.noConfusion ·)

/-- A row was there before, or the session that the event is about has just written it. -/
theorem Stepped.row_or_own {id? : Option (ClientId × ElectionId)} {r : Responder} {ni : String} {k : EntryKey}
    {i : Installed Entry} (hc : s.responder.rib.Coherent) (h : Stepped s v id? r) (hi : r.rib.row? ni k = some i) :
    s.responder.rib.row? ni k = some i ∨ s.session? v = some i.owner := by
  cases h with
  | idle | connected | deafened | settled | presented => exact .inl hi
  | programmed => exact (Rib.applyBatch_row_or_owner hc hi).imp id fun howner => congrArg some howner.symm
  | closed => exact .inl ((row?_disconnect_iff hc).1 hi).1
  | flushed => exact .inl ((Rib.row?_flushAll_iff hc).1 hi).1
  | changed =>
    rw [Rib.row?_outside ‹_›] at hi
    exact .inl hi

theorem Contained.step_other (hs : s.Orderly) (hc : s.responder.rib.Coherent) (h : Contained S s client)
    (other : s.session? v ≠ some client) : Contained S (s.step v).2 client := by
  have hu := step_unmoved other
  refine ⟨h.toBatching.of_unmoved hu, ?_⟩
  rw [hu.duty, parameters?_of_unmoved hu]
  refine h.ends.imp (And.imp_left fun attends => attends.congr hu.session) fun owned params hparams hdelete => ?_
  intro ni k i hi howner
  rcases (step_cases hs v).row_or_own hc hi with hold | hown
  · exact owned params hparams hdelete ni k i hold howner
  · exact absurd (howner ▸ hown) other

theorem Contained.conclude {next : Duty} (h : Contained S s client) (within : next.Within S) (hnext : next ≠ .leave)
    (opens : p.state.isOpen client = s.responder.isOpen client)
    (params : p.state.parameters? client = s.responder.parameters? client)
    (attends : s.responder.Attends client true → p.refusal = none ∧ p.state.Attends client true)
    (rib : s.responder.rib.AgreeOn (¬S ·) p.state.rib) : Contained S (s.conclude client p next).2 client := by
  have hduty : (s.conclude client p next).2.duty client = if p.refusal.isNone then next else .leave := by
    rw [duty_conclude, if_pos rfl]
  refine ⟨⟨?_, ?_⟩, ?_⟩
  · rw [hduty]
    split
    · exact within
    · trivial
  · rw [responder_conclude, opens, params]
    exact h.settled
  · rw [responder_conclude, hduty, params]
    refine h.ends.imp (fun hattends => ?_) fun owned params hparams hdelete ni k i hi howner => ?_
    · obtain ⟨haccepted, hafter⟩ := attends hattends.1
      rw [haccepted]
      exact ⟨hafter, hnext⟩
    · by_cases hni : S ni
      · exact hni
      · rw [Rib.row?, ← rib.tables ni hni] at hi
        exact owned params hparams hdelete ni k i hi howner

/-- A session that ends takes along nothing but in its own network instances. -/
theorem Contained.rib_disconnect (h : Contained S s client) (working : s.responder.rib.plane.failures = 0)
    (leaving : s.duty client = .leave) :
    s.responder.rib.AgreeOn (¬S ·) (s.responder.disconnect client).rib := by
  rcases s.responder.rib_disconnect_cases client with ⟨-, same⟩ | ⟨⟨params, hparams, hdelete⟩, removed⟩
  · rw [same]
    exact .refl working
  · rw [removed]
    rcases h.ends with ⟨-, staying⟩ | owned
    · exact absurd leaving staying
    · exact Rib.removeOwnedBy_agreeOn working (owned params hparams hdelete)

theorem parameters?_program (r : Responder) (client : ClientId) (operations : List Operation) :
    (r.program client operations).2.parameters? client = r.parameters? client := by
  rw [Responder.parameters?, program, get?_updateSession, if_pos rfl, Option.bind_map]
  rfl

theorem attends_runBatch {r : Responder} {operations : List Operation} (ha : r.Attends client true) :
    (r.runBatch client operations).refusal = none ∧ (r.runBatch client operations).state.Attends client true := by
  have hstaged := staged_runBatch ha { request := { operations }, taken := r, programming := some r } rfl
  exact ⟨hstaged.refusal, hstaged.attends hstaged.refusal⟩

/-- A turn of a session changes no tables but those of its own network instances, and it does not touch the election;
and the session goes on like that. -/
theorem Contained.step (h : Contained S s client) (hv : BatchEvent client S v)
    (working : s.responder.rib.plane.failures = 0) : Contained S (s.step v).2 client ∧
      s.responder.rib.AgreeOn (¬S ·) (s.step v).2.responder.rib ∧
      (s.step v).2.responder.primary = s.responder.primary := by
  have hidle : Contained S s client ∧ s.responder.rib.AgreeOn (¬S ·) s.responder.rib ∧
      s.responder.primary = s.responder.primary := ⟨h, .refl working, rfl⟩
  have hnothing {next : Duty} (within : next.Within S) (hnext : next ≠ .leave) :
      Contained S (s.conclude client { state := s.responder } next).2 client ∧
        s.responder.rib.AgreeOn (¬S ·) (s.conclude client { state := s.responder } next).2.responder.rib ∧
        (s.conclude client { state := s.responder } next).2.responder.primary = s.responder.primary := by
    rw [responder_conclude]
    exact ⟨h.conclude within hnext rfl rfl (fun ha => ⟨rfl, ha⟩) (.refl working), .refl working, rfl⟩
  cases hv with
  | @request request params election targets =>
    by_cases ready : s.Ready client
    · rw [step_batch h.toBatching ready params election]
      exact hnothing ⟨rfl, targets⟩ (Duty.noConfusion ·)
    · have hstep : s.step (.request client request) = ([], s) := if_neg ready
      rw [hstep]
      exact hidle
  | proceed =>
    have hwithin := h.duty
    cases hduty : s.duty client with
    | listen =>
      rw [Service.step, hduty]
      exact hidle
    | elect id? operations =>
      rw [hduty] at hwithin
      obtain ⟨rfl, hos⟩ := hwithin
      rw [step_elect_none hduty]
      exact hnothing hos (Duty.noConfusion ·)
    | program operations =>
      rw [hduty] at hwithin
      obtain ⟨hrib, hprimary⟩ := runBatch_confined working hwithin client
      rw [Service.step, hduty, responder_conclude]
      refine ⟨h.conclude trivial (Duty.noConfusion ·) ?_ ?_ attends_runBatch hrib, hrib, hprimary⟩
      · rcases s.responder.runBatch_cases client operations with same | same
        · rw [same]
        · rw [same]
          exact isOpen_updateSession ..
      · rcases s.responder.runBatch_cases client operations with same | same
        · rw [same]
        · rw [same, parameters?_program]
    | leave =>
      rw [Service.step, hduty]
      refine ⟨⟨⟨?_, ?_⟩, ?_⟩, ?_, ?_⟩
      · rw [duty_close]
        trivial
      · rw [not_isOpen_close]
        exact (Bool.noConfusion ·)
      · refine .inr fun params hparams => ?_
        rw [Responder.parameters?, get?_close] at hparams
        contradiction
      · exact h.rib_disconnect working hduty
      · rw [Service.close, disconnect_eq]

/-! ### Two sessions -/

/-- Two sessions that program batches for different network instances, with nobody else about. -/
structure Parted (S T : String → Prop) (client other : ClientId) (s : Service) : Prop where
  orderly : s.Orderly
  coherent : s.responder.rib.Coherent
  working : s.responder.rib.plane.failures = 0
  distinct : client ≠ other
  disjoint : ∀ ni, S ni → ¬T ni
  first : Contained S s client
  second : Contained T s other

theorem Parted.symm (h : Parted S T client other s) : Parted T S other client s :=
  ⟨h.orderly, h.coherent, h.working, h.distinct.symm, fun ni hT hS => h.disjoint ni hS hT, h.second, h.first⟩

theorem BatchEvent.session? (hv : BatchEvent client S v) : s.session? v = some client := by
  cases hv <;> rfl

theorem BatchEvent.not_other (hv : BatchEvent client S v) (distinct : client ≠ other) : s.session? v ≠ some other :=
  fun hother => distinct (Option.some.inj (hv.session?.symm.trans hother))

theorem Parted.step_first (h : Parted S T client other s) (hv : BatchEvent client S v) :
    Parted S T client other (s.step v).2 := by
  obtain ⟨hfirst, hrib, -⟩ := h.first.step hv h.working
  obtain ⟨ws, hws⟩ := (step_cases h.orderly v).rib
  have hcoherent : (s.step v).2.responder.rib.Coherent := hws ▸ Rib.run_coherent h.coherent ws
  exact ⟨h.orderly.step v, hcoherent, hrib.plane.working', h.distinct, h.disjoint, hfirst,
    h.second.step_other h.orderly h.coherent (hv.not_other h.distinct)⟩

theorem Parted.step (h : Parted S T client other s) (hv : BatchEvent client S v ∨ BatchEvent other T v) :
    Parted S T client other (s.step v).2 :=
  hv.elim h.step_first fun hv => (h.symm.step_first hv).symm

/-- A turn of the other session goes unseen. -/
theorem Parted.unseen (h : Parted S T client other s) (hv : BatchEvent other T v) : Sees S client s (s.step v).2 := by
  obtain ⟨-, hrib, hprimary⟩ := h.second.step hv h.working
  have hunmoved := step_unmoved (hv.not_other (s := s) h.distinct.symm)
  exact ⟨⟨hrib.mono h.disjoint, hunmoved.session.symm, hprimary.symm⟩, hunmoved.duty.symm⟩

/-- What a session is told and what it sees is what it would be told and see without the other one. -/
theorem Parted.run {as bs es : List Event} (hes : Interleaving as bs es) (h : Parted S T client other s)
    (hsees : Sees S client s t) (has : ∀ v ∈ as, BatchEvent client S v) (hbs : ∀ v ∈ bs, BatchEvent other T v) :
    s.heard client es = t.heard client as ∧ Sees S client (s.run es) (t.run as) := by
  induction hes generalizing s t with
  | nil => exact ⟨rfl, hsees⟩
  | @left v as bs es hes ih =>
    have hv := has v List.mem_cons_self
    obtain ⟨htold, hafter⟩ := hsees.own_step h.first.toBatching hv
    obtain ⟨hheard, hend⟩ :=
      ih (h.step (.inl hv)) hafter (fun w hw => has w (List.mem_cons_of_mem v hw)) hbs
    rw [heard, heard, hheard, said_of_own hv.session?, said_of_own hv.session?, htold]
    exact ⟨rfl, hend⟩
  | @right v as bs es hes ih =>
    have hv := hbs v List.mem_cons_self
    obtain ⟨hheard, hend⟩ :=
      ih (h.step (.inr hv)) ((h.unseen hv).symm.trans hsees) has (fun w hw => hbs w (List.mem_cons_of_mem v hw))
    have hsilent : s.said client v = [] := if_neg (hv.not_other h.distinct.symm)
    rw [heard, hheard, hsilent]
    exact ⟨rfl, hend⟩

/-- The tables of all other network instances stay as they are. -/
theorem Parted.run_elsewhere {as bs es : List Event} (hes : Interleaving as bs es) (h : Parted S T client other s)
    (has : ∀ v ∈ as, BatchEvent client S v) (hbs : ∀ v ∈ bs, BatchEvent other T v) :
    s.responder.rib.AgreeOn (fun ni => ¬S ni ∧ ¬T ni) (s.run es).responder.rib := by
  induction hes generalizing s with
  | nil => exact .refl h.working
  | @left v as bs es hes ih =>
    have hv := has v List.mem_cons_self
    exact ((h.first.step hv h.working).2.1.mono fun _ hni => hni.1).trans
      (ih (h.step (.inl hv)) (fun w hw => has w (List.mem_cons_of_mem v hw)) hbs)
  | @right v as bs es hes ih =>
    have hv := hbs v List.mem_cons_self
    exact ((h.second.step hv h.working).2.1.mono fun _ hni => hni.2).trans
      (ih (h.step (.inr hv)) has (fun w hw => hbs w (List.mem_cons_of_mem v hw)))

end Service

namespace Chronicle

open Service

variable {c d : ClientId} {as bs es fs : List Event}

/-- Two sessions program batches for different network instances, and neither takes along entries elsewhere if it ends.
Then each is told what it would be told if it were alone, and the tables end up the same on both sides, in whatever
order their turns are taken. -/
theorem orders_agree (h : Chronicle) (working : h.responder.rib.plane.failures = 0) (distinct : c ≠ d)
    (disjoint : ∀ ni, S ni → ¬T ni) (first : Contained S h.service c) (second : Contained T h.service d)
    (has : ∀ v ∈ as, BatchEvent c S v) (hbs : ∀ v ∈ bs, BatchEvent d T v)
    (hes : Interleaving as bs es) (hfs : Interleaving as bs fs) :
    (h.service.heard c es = h.service.heard c as ∧ h.service.heard c fs = h.service.heard c as) ∧
    (h.service.heard d es = h.service.heard d bs ∧ h.service.heard d fs = h.service.heard d bs) ∧
    (h.service.run es).responder.rib.instances = (h.service.run fs).responder.rib.instances ∧
    (h.service.run es).responder.rib.plane = (h.service.run fs).responder.rib.plane := by
  have hparted : Parted S T c d h.service := ⟨h.orderly, h.coherent, working, distinct, disjoint, first, second⟩
  obtain ⟨hec, hsec⟩ := hparted.run hes (.refl working) has hbs
  obtain ⟨hfc, hsfc⟩ := hparted.run hfs (.refl working) has hbs
  obtain ⟨hed, hsed⟩ := hparted.symm.run hes.symm (.refl working) hbs has
  obtain ⟨hfd, hsfd⟩ := hparted.symm.run hfs.symm (.refl working) hbs has
  refine ⟨⟨hec, hfc⟩, ⟨hed, hfd⟩, Rib.AgreeOn.eq fun ni => ?_⟩
  by_cases hS : S ni
  · exact ⟨S, hS, (hsec.trans hsfc.symm).responder.rib⟩
  by_cases hT : T ni
  · exact ⟨T, hT, (hsed.trans hsfd.symm).responder.rib⟩
  · exact ⟨_, ⟨hS, hT⟩, (hparted.run_elsewhere hes has hbs).symm.trans (hparted.run_elsewhere hfs has hbs)⟩

/-! ### Two examples -/

/-- The first client has written a next-hop, and the second one has settled its parameters. -/
def neighbours (events : List Event) : Chronicle where
  config := { networkInstances := ["OTHER"] }
  events :=
    .connect :: .connect :: (.request 1 { params := some {}, operations := [writeNextHop none] } :: turns 1 2) ++
      (.request 2 { params := some {} } :: turns 2 2) ++ events

/-- A request for one operation, with all the turns that it can take. -/
def single (client : ClientId) (operation : Operation) : List Event :=
  .request client { operations := [operation] } :: turns client 3

theorem batchEvent_single {operation : Operation} (target : S operation.networkInstance) :
    ∀ v ∈ single c operation, BatchEvent c S v := by
  intro v hv
  rcases List.mem_cons.1 hv with rfl | hturn
  · exact .request rfl rfl fun o ho => List.mem_singleton.1 ho ▸ target
  · obtain rfl : v = .proceed c := by simpa [turns] using hturn
    exact .proceed

/-- The first client goes on in another network instance. -/
def elsewhere : Operation where
  id := 2
  networkInstance := "OTHER"
  op := .add
  entry := .nextHop { index := 7, address := some (.v4 ⟨0xC0000206⟩) }

/-- The second client writes a group of the first one's next-hop. -/
def onTop : Operation where
  id := 1
  networkInstance := "DEFAULT"
  op := .add
  entry := .nextHopGroup { id := 10, members := Table.ofList [(42, 1)] }

/-- The second client is told the same whichever of the two comes first. -/
theorem orders_agree_neighbours :
    (neighbours []).responder.rib.plane.failures = 0 ∧
    (neighbours []).service.heard 2 (single 1 elsewhere ++ single 2 onTop) =
      [{ results := [{ id := 1, op := .add, key := .nextHopGroup 10, outcome := .installedInRib }] }] ∧
    (neighbours []).service.heard 2 (single 2 onTop ++ single 1 elsewhere) =
      (neighbours []).service.heard 2 (single 2 onTop) ∧
    ((neighbours []).service.run (single 1 elsewhere ++ single 2 onTop)).responder.rib.instances =
      ((neighbours []).service.run (single 2 onTop ++ single 1 elsewhere)).responder.rib.instances := by
  have hworking : (neighbours []).responder.rib.plane.failures = 0 := by decide +kernel
  have hfirst : Contained (· = "OTHER") (neighbours []).service 1 :=
    .of_attends (by decide +kernel) (by decide +kernel)
  have hsecond : Contained (· = "DEFAULT") (neighbours []).service 2 :=
    .of_attends (by decide +kernel) (by decide +kernel)
  have hdisjoint (ni : String) (hother : ni = "OTHER") : ¬ni = "DEFAULT" := by
    rw [hother]
    decide
  obtain ⟨-, ⟨-, hheard⟩, hinstances, -⟩ := (neighbours []).orders_agree hworking (by decide) hdisjoint hfirst hsecond
    (batchEvent_single rfl) (batchEvent_single rfl) (.append (single 1 elsewhere) (single 2 onTop))
    (Interleaving.append (single 2 onTop) (single 1 elsewhere)).symm
  exact ⟨hworking, by decide +kernel, hheard, hinstances⟩

/-- The first client no longer takes responses, so that its session ends when it is answered, and its next-hop goes. -/
theorem departure_disturbs :
    (neighbours [.deafen 1]).responder.rib.plane.failures = 0 ∧
    ((neighbours [.deafen 1]).responder.parameters? 1).isSome ∧
    ((neighbours [.deafen 1]).responder.parameters? 2).isSome ∧
    (neighbours [.deafen 1]).service.duty 1 = .listen ∧ (neighbours [.deafen 1]).service.duty 2 = .listen ∧
    (∀ v ∈ single 1 elsewhere, BatchEvent 1 (· = "OTHER") v) ∧
    (∀ v ∈ single 2 onTop, BatchEvent 2 (· = "DEFAULT") v) ∧
    Interleaving (single 1 elsewhere) (single 2 onTop) (single 1 elsewhere ++ single 2 onTop) ∧
    Interleaving (single 1 elsewhere) (single 2 onTop) (single 2 onTop ++ single 1 elsewhere) ∧
    (((neighbours [.deafen 1]).service.heard 2 (single 1 elsewhere ++ single 2 onTop)).flatMap (·.results)).map
      (fun a => (a.id, a.outcome)) = [(1, .failed)] ∧
    (((neighbours [.deafen 1]).service.heard 2 (single 2 onTop ++ single 1 elsewhere)).flatMap (·.results)).map
      (fun a => (a.id, a.outcome)) = [(1, .installedInRib)] ∧
    ((neighbours [.deafen 1]).service.run (single 1 elsewhere ++ single 2 onTop)).responder.rib.instances ≠
      ((neighbours [.deafen 1]).service.run (single 2 onTop ++ single 1 elsewhere)).responder.rib.instances :=
  ⟨by decide +kernel, by decide +kernel, by decide +kernel, by decide +kernel, by decide +kernel,
    batchEvent_single rfl, batchEvent_single rfl, .append _ _, (Interleaving.append _ _).symm,
    by decide +kernel, by decide +kernel, by decide +kernel⟩

end Chronicle

end RouteProgramming
