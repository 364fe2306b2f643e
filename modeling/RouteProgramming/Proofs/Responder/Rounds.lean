import RouteProgramming.Proofs.Responder.Stages

/-! The rounds of one session: each request that it takes, with the responder at
each of the three stages that the request goes through. What other sessions do
in between, and what comes from outside, leaves a session and its duty as they
are, so that the rounds of a session are all that there is to tell about it. -/

namespace RouteProgramming

namespace Responder

variable {r : Responder} {client other : ClientId}

/-! ### Other sessions -/

theorem get?_settle_of_ne (r : Responder) (params : Option Parameters) (hne : other ≠ client) :
    (r.settle client params).state.sessions.get? other = r.sessions.get? other := by
  cases r.settle_cases client params with
  | refused same | before same => rw [same]
  | now fresh agreed => rw [(negotiate_ok agreed).1, get?_updateSession, if_neg hne]

theorem get?_elect_of_ne (r : Responder) (id? : Option ElectionId) (hne : other ≠ client) :
    (r.elect client id?).state.sessions.get? other = r.sessions.get? other := by
  rcases r.elect_cases client id? with ⟨same, -⟩ | ⟨id, primary, -, accepted⟩
  · rw [same]
  · obtain ⟨-, -, -, hstate⟩ := present_ok accepted
    have hrow := r.get?_updateSession client ({ · with electionId := some id }) other
    rw [if_neg hne] at hrow
    rw [hstate]
    exact hrow

theorem get?_program_of_ne (r : Responder) (operations : List Operation) (hne : other ≠ client) :
    (r.program client operations).2.sessions.get? other = r.sessions.get? other :=
  (get?_updateSession ..).trans (if_neg hne)

theorem get?_runBatch_of_ne (r : Responder) (operations : List Operation) (hne : other ≠ client) :
    (r.runBatch client operations).state.sessions.get? other = r.sessions.get? other := by
  rcases r.runBatch_cases client operations with same | same
  · rw [same]
  · rw [same, get?_program_of_ne r operations hne]

theorem get?_disconnect_of_ne (r : Responder) (hne : other ≠ client) :
    (r.disconnect client).sessions.get? other = r.sessions.get? other := by
  rw [disconnect_eq]
  exact Table.get?_erase_of_ne _ hne

end Responder

namespace Service

open Responder

variable {s t : Service} {client : ClientId} {v : Event}

/-- The session that an event is about. -/
def session? (s : Service) : Event → Option ClientId
  | .connect => some s.responder.nextClient
  | .request client _ | .proceed client | .hangUp client | .deafen client => some client
  | .flush _ | .plane _ _ => none

/-- A session and its duty are as they were. -/
structure Unmoved (s t : Service) (client : ClientId) : Prop where
  duty : t.duty client = s.duty client
  session : t.responder.sessions.get? client = s.responder.sessions.get? client

theorem duty_close_of_ne {other : ClientId} (s : Service) (hne : other ≠ client) :
    (s.close client).duty other = s.duty other := by
  rw [duty, close, Table.get?_erase_of_ne _ hne, duty]

theorem unmoved_conclude {other : ClientId} {p : Progress} {next : Duty} (hne : other ≠ client)
    (h : p.state.sessions.get? other = s.responder.sessions.get? other) :
    Unmoved s (s.conclude client p next).2 other := by
  constructor
  · rw [duty_conclude, if_neg hne]
  · rw [responder_conclude, h]

theorem unmoved_close {other : ClientId} (s : Service) (hne : other ≠ client) : Unmoved s (s.close client) other :=
  ⟨duty_close_of_ne s hne, get?_disconnect_of_ne _ hne⟩

/-- What is about another session leaves a session alone. -/
theorem step_unmoved (h : s.session? v ≠ some client) : Unmoved s (s.step v).2 client := by
  cases v with
  | connect =>
    have hne : client ≠ s.responder.nextClient := fun heq => h (heq ▸ rfl)
    exact ⟨rfl, Table.get?_insert_of_ne _ _ hne⟩
  | request other request =>
    have hne : client ≠ other := fun heq => h (heq ▸ rfl)
    rw [step]
    split
    · exact unmoved_conclude hne (get?_settle_of_ne _ _ hne)
    · exact ⟨rfl, rfl⟩
  | proceed other =>
    have hne : client ≠ other := fun heq => h (heq ▸ rfl)
    rw [step]
    split
    · exact ⟨rfl, rfl⟩
    · exact unmoved_conclude hne (get?_elect_of_ne _ _ hne)
    · exact unmoved_conclude hne (get?_runBatch_of_ne _ _ hne)
    · exact unmoved_close s hne
  | hangUp other =>
    have hne : client ≠ other := fun heq => h (heq ▸ rfl)
    rw [step]
    dsimp only
    split
    · exact unmoved_close s hne
    · exact ⟨rfl, rfl⟩
  | deafen other =>
    have hne : client ≠ other := fun heq => h (heq ▸ rfl)
    exact ⟨rfl, (get?_updateSession ..).trans (if_neg hne)⟩
  | flush request =>
    rw [step]
    split
    case h_1 accepted =>
      obtain ⟨targets, -, -, rfl⟩ := flush_ok accepted
      exact ⟨rfl, rfl⟩
    case h_2 => exact ⟨rfl, rfl⟩
  | plane => exact ⟨rfl, rfl⟩

theorem isOpen_of_unmoved (h : Unmoved s t client) : t.responder.isOpen client = s.responder.isOpen client := by
  rw [isOpen, isOpen, Table.contains, Table.contains, h.session]

theorem parameters?_of_unmoved (h : Unmoved s t client) :
    t.responder.parameters? client = s.responder.parameters? client := by
  rw [Responder.parameters?, Responder.parameters?, h.session]

/-! ### A session with nothing to do -/

/-- The session can take a request. -/
def Ready (s : Service) (client : ClientId) : Prop := s.responder.isOpen client ∧ s.duty client = .listen

instance (s : Service) (client : ClientId) : Decidable (s.Ready client) := inferInstanceAs (Decidable (_ ∧ _))

theorem step_of_ready {request : ModifyRequest} (h : s.Ready client) :
    s.step (.request client request) = s.conclude client (s.responder.settle client request.params)
      (.elect request.electionId request.operations) := if_pos h

/-- What an event can do that is about a session and that is not a request which it takes, while the session is in
the middle of no request. -/
inductive Idled (s : Service) (client : ClientId) : Event → Service → Prop
  | connected (new : client = s.responder.nextClient) :
    Idled s client .connect { s with responder := s.responder.connect.2 }
  | same {v : Event} : Idled s client v s
  | closed {v : Event} : Idled s client v (s.close client)
  | deafened : Idled s client (.deafen client) { s with responder := s.responder.deafen client }

/-- Such an event has no answer. -/
theorem step_idled (own : s.session? v = some client) (idle : s.duty client = .listen ∨ s.duty client = .leave)
    (quiet : ∀ request, v = .request client request → ¬s.Ready client) :
    (s.step v).1 = [] ∧ Idled s client v (s.step v).2 := by
  cases v with
  | connect => exact ⟨rfl, .connected (Option.some.inj own).symm⟩
  | request other request =>
    obtain rfl := Option.some.inj own
    have hstep : s.step (.request other request) = ([], s) := if_neg (quiet request rfl)
    rw [hstep]
    exact ⟨rfl, .same⟩
  | proceed other =>
    obtain rfl := Option.some.inj own
    rcases idle with hlisten | hleave
    · rw [step, hlisten]
      exact ⟨rfl, .same⟩
    · rw [step, hleave]
      exact ⟨rfl, .closed⟩
  | hangUp other =>
    obtain rfl := Option.some.inj own
    refine ⟨rfl, ?_⟩
    rw [step]
    dsimp only
    split
    · exact .closed
    · exact .same
  | deafen other =>
    obtain rfl := Option.some.inj own
    exact ⟨rfl, .deafened⟩
  | flush | plane => contradiction

/-! ### Turns -/

/-- The session has a turn. -/
def Event.isTurn (client : ClientId) : Event → Bool
  | .proceed other => other = client
  | _ => false

/-- How many turns are left until a session has nothing to do. -/
def turnsLeft : Duty → Nat
  | .listen => 0
  | .leave => 1
  | .program _ => 2
  | .elect _ _ => 3

theorem turnsLeft_eq_zero_iff {d : Duty} : turnsLeft d = 0 ↔ d = .listen := by
  cases d <;> simp [turnsLeft]

theorem turnsLeft_le (d : Duty) : turnsLeft d ≤ 3 := by
  cases d <;> simp [turnsLeft]

theorem turnsLeft_conclude {n : Nat} {next : Duty} (s : Service) (p : Progress) (hn : 1 ≤ n)
    (hnext : turnsLeft next ≤ n) : turnsLeft ((s.conclude client p next).2.duty client) ≤ n := by
  rw [duty_conclude, if_pos rfl]
  split
  · exact hnext
  · exact hn

/-- Only a request that is taken gives a session more to do. -/
theorem turnsLeft_step (quiet : ∀ request, v = .request client request → ¬s.Ready client) :
    turnsLeft ((s.step v).2.duty client) ≤ turnsLeft (s.duty client) - (v.isTurn client).toNat := by
  by_cases own : s.session? v = some client
  case neg =>
    have hother : v.isTurn client = false := by
      cases v with
      | proceed other => exact decide_eq_false fun heq => own (heq ▸ rfl)
      | connect | request | hangUp | deafen | flush | plane => rfl
    rw [(step_unmoved own).duty, hother]
    exact Nat.le_refl _
  case pos =>
    cases v with
    | connect | deafen => exact Nat.le_refl _
    | request other request =>
      obtain rfl := Option.some.inj own
      have hstep : s.step (.request other request) = ([], s) := if_neg (quiet request rfl)
      rw [hstep]
      exact Nat.le_refl _
    | proceed other =>
      obtain rfl := Option.some.inj own
      have hturn : (Event.proceed other).isTurn other = true := decide_eq_true rfl
      rw [hturn, step]
      cases hduty : s.duty other with
      | listen => exact Nat.le_of_eq (congrArg turnsLeft hduty)
      | elect id? operations => exact turnsLeft_conclude s _ (Nat.le_succ 1) (Nat.le_refl 2)
      | program operations => exact turnsLeft_conclude s _ (Nat.le_refl 1) (Nat.zero_le 1)
      | leave => exact Nat.le_of_eq (congrArg turnsLeft (duty_close s other))
    | hangUp other =>
      obtain rfl := Option.some.inj own
      rw [step]
      dsimp only
      split
      · rw [duty_close]
        exact Nat.zero_le _
      · exact Nat.le_refl _
    | flush | plane => contradiction

/-- A session that takes no request has nothing left to do after three turns, whatever else happens meanwhile. -/
theorem duty_run_of_turns {es : List Event}
    (quiet : ∀ ds request fs, es = ds ++ .request client request :: fs → ¬(s.run ds).Ready client)
    (turns : turnsLeft (s.duty client) ≤ es.countP (·.isTurn client)) : (s.run es).duty client = .listen := by
  induction es generalizing s with
  | nil => exact turnsLeft_eq_zero_iff.1 (Nat.le_zero.1 turns)
  | cons v es ih =>
    have hstep : turnsLeft ((s.step v).2.duty client) ≤ turnsLeft (s.duty client) - (v.isTurn client).toNat :=
      turnsLeft_step fun request hv => quiet [] request es (congrArg (· :: es) hv)
    have hturn : (if v.isTurn client then 1 else 0) = (v.isTurn client).toNat := by cases v.isTurn client <;> rfl
    rw [List.countP_cons, hturn] at turns
    refine ih (s := (s.step v).2) (fun ds request fs hes => ?_) (by omega)
    exact quiet (v :: ds) request fs (congrArg (v :: ·) hes)

/-! ### The end of a session -/

theorem get?_close (s : Service) (client : ClientId) : (s.close client).responder.sessions.get? client = none := by
  rw [close, disconnect_eq]
  exact Table.get?_erase_self ..

theorem not_isOpen_close (s : Service) (client : ClientId) : (s.close client).responder.isOpen client = false := by
  rw [isOpen, Table.contains, get?_close]
  rfl

/-- The session has ended, or it has nothing left to do but to end. -/
structure Finished (s : Service) (client : ClientId) : Prop where
  past : client < s.responder.nextClient
  closing : s.responder.isOpen client → s.duty client = .leave
  idle : s.duty client = .listen ∨ s.duty client = .leave

theorem Finished.quiet (hf : Finished s client) : ¬s.Ready client := by
  intro hready
  have hleave := hf.closing hready.1
  rw [hready.2] at hleave
  contradiction

theorem Finished.step_idled (hf : Finished s client) (own : s.session? v = some client) :
    (s.step v).1 = [] ∧ Idled s client v (s.step v).2 :=
  Service.step_idled own hf.idle fun _ _ => hf.quiet

theorem Finished.of_unmoved (hf : Finished s client) (hu : Unmoved s t client)
    (later : s.responder.nextClient ≤ t.responder.nextClient) : Finished t client := by
  refine ⟨Nat.lt_of_lt_of_le hf.past later, fun hopen => ?_, ?_⟩
  · rw [hu.duty]
    exact hf.closing (isOpen_of_unmoved hu ▸ hopen)
  · rw [hu.duty]
    exact hf.idle

theorem Finished.step (hs : s.Orderly) (hf : Finished s client) (v : Event) : Finished (s.step v).2 client := by
  have hlater := (step_cases hs v).nextClient_le
  by_cases own : s.session? v = some client
  · have hidled := (hf.step_idled own).2
    generalize (s.step v).2 = t at hidled hlater
    cases hidled with
    | connected new => exact absurd hf.past (new ▸ Nat.lt_irrefl _)
    | same => exact hf
    | closed =>
      refine ⟨Nat.lt_of_lt_of_le hf.past hlater, fun hopen => ?_, .inl (duty_close s client)⟩
      rw [not_isOpen_close] at hopen
      contradiction
    | deafened =>
      refine ⟨hf.past, fun hopen => hf.closing ?_, hf.idle⟩
      rwa [deafen, isOpen_updateSession] at hopen
  · exact hf.of_unmoved (step_unmoved own) hlater

theorem Finished.run (hs : s.Orderly) (hf : Finished s client) (es : List Event) : Finished (s.run es) client := by
  induction es generalizing s with
  | nil => exact hf
  | cons v es ih => exact ih (hs.step v) (hf.step hs v)

/-- A session that is finished is gone after its next turn. -/
theorem Finished.get?_run (hs : s.Orderly) (hf : Finished s client) {es : List Event} (turn : .proceed client ∈ es) :
    (s.run es).responder.sessions.get? client = none := by
  have hturns : turnsLeft (s.duty client) ≤ es.countP (·.isTurn client) := by
    have hpos : 0 < es.countP (·.isTurn client) := List.countP_pos_iff.2 ⟨_, turn, decide_eq_true rfl⟩
    rcases hf.idle with hlisten | hleave
    · rw [hlisten]
      exact Nat.zero_le _
    · rw [hleave]
      exact hpos
  have hduty : (s.run es).duty client = .listen :=
    duty_run_of_turns (fun ds _ _ _ => (hf.run hs ds).quiet) hturns
  have hclosed : ¬(s.run es).responder.isOpen client := fun hopen => by
    have hleave := (hf.run hs es).closing hopen
    rw [hduty] at hleave
    contradiction
  rwa [isOpen, Table.contains, Option.not_isSome_iff_eq_none] at hclosed

/-! ### Rounds -/

/-- A request that a session has taken, with the responder as it was at each stage that the request has reached. -/
structure Round where
  request : ModifyRequest
  taken : Responder
  electing : Option Responder := none
  programming : Option Responder := none

/-- The latest round goes through the stage that is due. -/
def advance (r : Responder) : Duty → List Round → List Round
  | .elect _ _, t :: older => { t with electing := some r } :: older
  | .program _, t :: older => { t with programming := some r } :: older
  | _, ts => ts

/-- The rounds of a session after an event, the latest first. -/
def record (s : Service) (client : ClientId) (ts : List Round) : Event → List Round
  | .request other request =>
    if other = client ∧ s.Ready client then { request, taken := s.responder } :: ts else ts
  | .proceed other => if other = client then advance s.responder (s.duty client) ts else ts
  | _ => ts

def rounds (s : Service) (client : ClientId) (ts : List Round) : List Event → List Round
  | [] => ts
  | v :: vs => (s.step v).2.rounds client (s.record client ts v) vs

theorem rounds_append (s : Service) (client : ClientId) (ts : List Round) (es fs : List Event) :
    s.rounds client ts (es ++ fs) = (s.run es).rounds client (s.rounds client ts es) fs := by
  induction es generalizing s ts with
  | nil => rfl
  | cons v es ih => exact ih ..

theorem advance_ne_nil {ts : List Round} (h : ts ≠ []) (r : Responder) (d : Duty) : advance r d ts ≠ [] := by
  cases ts with
  | nil => contradiction
  | cons t older => cases d <;> exact List.cons_ne_nil _ _

/-- Rounds are not forgotten. -/
theorem record_ne_nil {ts : List Round} (h : ts ≠ []) (v : Event) : s.record client ts v ≠ [] := by
  cases v with
  | request other request =>
    rw [record]
    split
    · exact List.cons_ne_nil _ _
    · exact h
  | proceed other =>
    rw [record]
    split
    · exact advance_ne_nil h _ _
    · exact h
  | connect | hangUp | deafen | flush | plane => exact h

/-- The first round begins with a request that is taken. -/
theorem record_nil (quiet : ∀ request, v = .request client request → ¬s.Ready client) : s.record client [] v = [] := by
  cases v with
  | request other request =>
    have hnot : ¬(other = client ∧ s.Ready client) := by
      rintro ⟨rfl, hready⟩
      exact quiet request rfl hready
    rw [record, if_neg hnot]
  | proceed other =>
    rw [record]
    split
    · cases s.duty client <;> rfl
    · rfl
  | connect | hangUp | deafen | flush | plane => rfl

/-- A round goes on only while its session is in the middle of a request. -/
theorem record_of_idle (ts : List Round) (idle : s.duty client = .listen ∨ s.duty client = .leave)
    (quiet : ∀ request, v = .request client request → ¬s.Ready client) : s.record client ts v = ts := by
  cases v with
  | request other request =>
    have hnot : ¬(other = client ∧ s.Ready client) := by
      rintro ⟨rfl, hready⟩
      exact quiet request rfl hready
    rw [record, if_neg hnot]
  | proceed other =>
    rw [record]
    split
    · rcases idle with hlisten | hleave
      · rw [hlisten]
        cases ts <;> rfl
      · rw [hleave]
        cases ts <;> rfl
    · rfl
  | connect | hangUp | deafen | flush | plane => rfl

/-- In the middle of a request a session takes nothing else, and it does not hear that its line has ended. -/
theorem step_of_busy (own : s.session? v = some client) (opened : client < s.responder.nextClient)
    (busy : s.duty client ≠ .listen) (ts : List Round) :
    v = .proceed client ∨ v = .deafen client ∨ s.step v = ([], s) ∧ s.record client ts v = ts := by
  cases v with
  | connect => exact absurd opened (Option.some.inj own ▸ Nat.lt_irrefl _)
  | request other request =>
    obtain rfl := Option.some.inj own
    have hnot : ¬s.Ready other := fun hready => busy hready.2
    have hstep : s.step (.request other request) = ([], s) := if_neg hnot
    refine .inr (.inr ⟨hstep, ?_⟩)
    rw [record, if_neg fun h => hnot h.2]
  | proceed other => exact .inl (congrArg Event.proceed (Option.some.inj own))
  | hangUp other =>
    obtain rfl := Option.some.inj own
    refine .inr (.inr ⟨?_, rfl⟩)
    rw [step, if_neg busy]
  | deafen other => exact .inr (.inl (congrArg Event.deafen (Option.some.inj own)))
  | flush | plane => contradiction

theorem record_of_other {ts : List Round} (h : s.session? v ≠ some client) : s.record client ts v = ts := by
  cases v with
  | request other request =>
    have hne : ¬(other = client ∧ s.Ready client) := fun heq => h (heq.1 ▸ rfl)
    rw [record, if_neg hne]
  | proceed other =>
    have hne : other ≠ client := fun heq => h (heq ▸ rfl)
    rw [record, if_neg hne]
  | connect | hangUp | deafen | flush | plane => rfl

theorem rounds_ne_nil {ts : List Round} (h : ts ≠ []) (es : List Event) : s.rounds client ts es ≠ [] := by
  induction es generalizing s ts with
  | nil => exact h
  | cons v es ih => exact ih (record_ne_nil h v)

end Service

namespace Chronicle

/-- The rounds that a session has had, the latest first. -/
def rounds (h : Chronicle) (client : ClientId) : List Service.Round := h.start.rounds client [] h.events

theorem rounds_concat (h : Chronicle) (client : ClientId) (es : List Service.Event) (v : Service.Event) :
    (h.before (es ++ [v])).rounds client =
      (h.before es).service.record client ((h.before es).rounds client) v :=
  Service.rounds_append _ _ _ es [v]

/-- A session that has had no round yet has had none before. -/
theorem rounds_eq_nil {h : Chronicle} {client : ClientId} {es fs : List Service.Event} (earlier : es <+: fs)
    (hnone : (h.before fs).rounds client = []) : (h.before es).rounds client = [] := by
  obtain ⟨gs, rfl⟩ := earlier
  have happend : (h.before (es ++ gs)).rounds client =
      (h.before es).service.rounds client ((h.before es).rounds client) gs := Service.rounds_append ..
  refine Classical.byContradiction fun hsome => ?_
  exact Service.rounds_ne_nil hsome gs (happend ▸ hnone)

end Chronicle

end RouteProgramming
