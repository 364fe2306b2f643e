import Mathlib.Data.List.Basic
import RouteProgramming.Proofs.Responder.Conversation

/-! What a session is told, by kind. Every response says one thing only. At most
one of them is about parameters; those about election ids belong one by one to
the ids that were granted an answer; and the acknowledgments are, one by one,
those of the operations that were taken, except that the latest request may
still lack its own. -/

namespace RouteProgramming

/-- Which operation an acknowledgment is about. -/
def Acknowledgment.subject (a : Acknowledgment) : UInt64 × OperationType × EntryKey := (a.id, a.op, a.key)

def Operation.subject (o : Operation) : UInt64 × OperationType × EntryKey := (o.id, o.op, o.key)

/-- The response says one thing only. -/
inductive ModifyResponse.Plain : ModifyResponse → Prop
  | params (result : ParametersResult) : Plain { paramsResult := some result }
  | election (primary : ElectionId) : Plain { electionId := some primary }
  | results (acks : List Acknowledgment) : Plain { results := acks }
  | farewell (reason : String) : Plain { error := some reason }

namespace Service

variable {s : Service} {client : ClientId} {ts older : List Round} {t : Round}

/-! ### One round -/

namespace Round

/-- The election id that a round has presented, with the primary id that was the answer. -/
def grant? (t : Round) (client : ClientId) : Option (ElectionId × ElectionId) :=
  match t.electing, t.request.electionId with
  | some r, some id =>
    match r.present client id with
    | .ok (primary, _) => some (id, primary)
    | .error _ => none
  | _, _ => none

theorem grant?_eq_some {grant : ElectionId × ElectionId} (h : t.grant? client = some grant) :
    t.request.electionId = some grant.1 ∧
      ∃ r s, t.electing = some r ∧ r.present client grant.1 = .ok (grant.2, s) := by
  rw [grant?] at h
  split at h
  case h_1 r id helecting hid =>
    split at h
    case h_1 primary s hpresent =>
      obtain rfl := Option.some.inj h
      exact ⟨hid, r, s, helecting, hpresent⟩
    case h_2 => contradiction
  case h_2 => contradiction

/-- What a round is told, put together from one part for each stage and a last word. -/
structure Parts (t : Round) (client : ClientId) (first : Bool) where
  params : Option ParametersResult
  acks : Option (List Acknowledgment)
  reason : Option String
  whole : t.answer client first = params.toList.map (fun result => { paramsResult := some result }) ++
    (t.grant? client).toList.map (fun grant => { electionId := some grant.2 }) ++
    acks.toList.map (fun acks => { results := acks }) ++ reason.toList.map (fun reason => { error := some reason })
  params_first : params.isSome → first
  subjects : (acks.getD []).map Acknowledgment.subject <+: t.request.operations.map Operation.subject
  subjects_programmed : t.programming.isSome →
    (acks.getD []).map Acknowledgment.subject = t.request.operations.map Operation.subject

theorem paramsAnswer_cases (t : Round) (client : ClientId) (first : Bool) : ∃ params : Option ParametersResult,
    t.paramsAnswer client first = params.toList.map (fun result => { paramsResult := some result }) ∧
      (params.isSome → first) := by
  rw [paramsAnswer]
  split
  case isTrue h =>
    split
    · exact ⟨some .ok, rfl, fun _ => h.1⟩
    case h_2 e _ => exact ⟨some (.error e.message), rfl, fun _ => h.1⟩
  case isFalse => exact ⟨none, rfl, (Bool.noConfusion ·)⟩

theorem electionAnswer_eq (t : Round) (client : ClientId) :
    t.electionAnswer client = (t.grant? client).toList.map fun grant => { electionId := some grant.2 } := by
  rw [electionAnswer, presentation, grant?]
  cases t.electing with
  | none => rfl
  | some r =>
    cases t.request.electionId with
    | none => rfl
    | some id => cases h : r.present client id <;> simp [h, Except.map]

theorem batchAnswer_cases (t : Round) (client : ClientId) : ∃ acks : Option (List Acknowledgment),
    t.batchAnswer client = acks.toList.map (fun acks => { results := acks }) ∧
      (acks.getD []).map Acknowledgment.subject <+: t.request.operations.map Operation.subject ∧
      (t.programming.isSome →
        (acks.getD []).map Acknowledgment.subject = t.request.operations.map Operation.subject) := by
  rw [batchAnswer]
  cases t.programming with
  | none => exact ⟨none, rfl, List.nil_prefix, (Bool.noConfusion ·)⟩
  | some r =>
    cases t.request.operations with
    | nil => exact ⟨none, rfl, List.nil_prefix, fun _ => rfl⟩
    | cons o os =>
      have hsubjects := r.rib.map_about_applyBatch (r.context client) (o :: os)
      exact ⟨some _, rfl, hsubjects ▸ List.prefix_refl _, fun _ => hsubjects⟩

theorem exists_parts (t : Round) (client : ClientId) (first : Bool) : Nonempty (Parts t client first) := by
  obtain ⟨params, hparams, hfirst⟩ := t.paramsAnswer_cases client first
  obtain ⟨acks, hacks, hsubjects, hprogrammed⟩ := t.batchAnswer_cases client
  refine ⟨params, acks, (t.refusal? client first).map (·.message), ?_, hfirst, hsubjects, hprogrammed⟩
  rw [answer, hparams, electionAnswer_eq, hacks, farewell]
  cases t.refusal? client first <;> rfl

theorem answer_plain (t : Round) (client : ClientId) (first : Bool) : ∀ m ∈ t.answer client first, m.Plain := by
  obtain ⟨parts⟩ := t.exists_parts client first
  intro m hm
  rw [parts.whole, List.mem_append, List.mem_append, List.mem_append, or_assoc, or_assoc] at hm
  rcases hm with hm | hm | hm | hm
  all_goals obtain ⟨x, -, rfl⟩ := List.mem_map.1 hm
  · exact .params x
  · exact .election x.2
  · exact .results x
  · exact .farewell x

theorem elections_answer (t : Round) (client : ClientId) (first : Bool) :
    (t.answer client first).filterMap (·.electionId) = (t.grant? client).toList.map (·.2) := by
  obtain ⟨parts⟩ := t.exists_parts client first
  simp [parts.whole, List.filterMap_map]

theorem params_answer (t : Round) (client : ClientId) (first : Bool) :
    ((t.answer client first).filterMap (·.paramsResult)).length ≤ first.toNat := by
  obtain ⟨parts⟩ := t.exists_parts client first
  have hfirst := parts.params_first
  rw [parts.whole]
  cases hparams : parts.params <;> simp_all [List.filterMap_map]

/-- All operations of a round are acknowledged, or none is. -/
theorem subjects_answer (t : Round) (client : ClientId) (first : Bool) :
    ((t.answer client first).flatMap (·.results)).map Acknowledgment.subject <+:
        t.request.operations.map Operation.subject ∧
      (t.programming.isSome → ((t.answer client first).flatMap (·.results)).map Acknowledgment.subject =
        t.request.operations.map Operation.subject) := by
  obtain ⟨parts⟩ := t.exists_parts client first
  have hacks : (t.answer client first).flatMap (·.results) = parts.acks.getD [] := by
    have hnil {α : Type} (l : List α) : l.flatMap (fun _ => ([] : List Acknowledgment)) = [] :=
      List.flatMap_eq_nil_iff.2 fun _ _ => rfl
    rw [parts.whole]
    cases parts.acks <;> simp [List.flatMap_map, hnil]
  rw [hacks]
  exact ⟨parts.subjects, parts.subjects_programmed⟩

end Round

/-! ### All rounds -/

theorem answers_plain (client : ClientId) (ts : List Round) : ∀ m ∈ answers client ts, m.Plain := by
  induction ts with
  | nil => nofun
  | cons t older ih =>
    intro m hm
    rcases List.mem_append.1 hm with hm | hm
    · exact ih m hm
    · exact t.answer_plain client older.isEmpty m hm

/-- The election ids that were granted an answer, oldest first, each with its answer. -/
def grants (client : ClientId) (ts : List Round) : List (ElectionId × ElectionId) :=
  ts.reverse.filterMap (·.grant? client)

/-- The operations of all rounds, oldest first. -/
def taken (ts : List Round) : List Operation := ts.reverse.flatMap (·.request.operations)

theorem elections_answers (client : ClientId) (ts : List Round) :
    (answers client ts).filterMap (·.electionId) = (grants client ts).map (·.2) := by
  induction ts with
  | nil => rfl
  | cons t older ih =>
    rw [answers, List.filterMap_append, ih, t.elections_answer, grants, grants, List.reverse_cons,
      List.filterMap_append, List.map_append]
    cases h : t.grant? client <;> simp [h]

theorem grants_presented (client : ClientId) (ts : List Round) :
    ((grants client ts).map (·.1)).Sublist ((ts.reverse.map (·.request)).filterMap (·.electionId)) := by
  rw [grants]
  induction ts.reverse with
  | nil => exact List.Sublist.refl _
  | cons t rest ih =>
    rw [List.map_cons]
    cases h : t.grant? client with
    | none =>
      rw [List.filterMap_cons, h, List.filterMap_cons]
      cases t.request.electionId with
      | none => exact ih
      | some id => exact ih.cons id
    | some grant =>
      rw [List.filterMap_cons, h, List.filterMap_cons, (Round.grant?_eq_some h).1]
      exact ih.cons_cons grant.1

/-- A session is told about its parameters once at most. -/
theorem params_answers (client : ClientId) (ts : List Round) :
    ((answers client ts).filterMap (·.paramsResult)).length ≤ 1 := by
  have hlast (t : Round) (older : List Round) := t.params_answer client older.isEmpty
  induction ts with
  | nil => exact Nat.zero_le _
  | cons t older ih =>
    rw [answers, List.filterMap_append, List.length_append]
    cases older with
    | nil => simpa [answers] using hlast t []
    | cons u older => exact Nat.add_le_add ih (hlast t (u :: older))

theorem Served.subjects (h : Served client ts) :
    ((answers client ts).flatMap (·.results)).map Acknowledgment.subject = (taken ts).map Operation.subject := by
  induction h with
  | nil => rfl
  | @cons t older earlier accepted elected programmed ih =>
    rw [answers, List.flatMap_append, List.map_append, ih, (t.subjects_answer client _).2 programmed, taken, taken,
      List.reverse_cons, List.flatMap_append, List.map_append, List.flatMap_singleton]

/-- Operations are acknowledged in the order in which they are taken, and none is passed over. -/
theorem Standing.subjects (h : Standing s client ts) :
    ((answers client ts).flatMap (·.results)).map Acknowledgment.subject <+: (taken ts).map Operation.subject := by
  cases ts with
  | nil => exact List.prefix_refl _
  | cons t older =>
    rw [answers, List.flatMap_append, List.map_append, h.earlier.subjects, taken, taken, List.reverse_cons,
      List.flatMap_append, List.map_append, List.flatMap_singleton]
    exact (List.prefix_append_right_inj _).2 (t.subjects_answer client _).1

/-! ### Sessions to come -/

/-- A session has nothing to do before it is opened. -/
theorem step_unopened (hs : s.Orderly) {v : Event} (idle : s.responder.nextClient ≤ client → s.duty client = .listen)
    (later : (s.step v).2.responder.nextClient ≤ client) : (s.step v).2.duty client = .listen := by
  have hfresh := Nat.le_trans (step_cases hs v).nextClient_le later
  by_cases own : s.session? v = some client
  case neg => rw [(step_unmoved own).duty, idle hfresh]
  have hquiet : ∀ request, v = .request client request → ¬s.Ready client := by
    rintro request - ⟨hopen, -⟩
    obtain ⟨session, hsession⟩ := Table.contains_iff.1 hopen
    exact Nat.lt_irrefl _ (Nat.lt_of_lt_of_le (hs.numbered client session hsession) hfresh)
  obtain ⟨-, hidled⟩ := step_idled own (.inl (idle hfresh)) hquiet
  generalize (s.step v).2 = t at hidled
  cases hidled with
  | connected | same | deafened => exact idle hfresh
  | closed => exact duty_close s client

end Service

namespace Chronicle

open Service

theorem duty_unopened (h : Chronicle) {client : ClientId} (fresh : h.responder.nextClient ≤ client) :
    h.service.duty client = .listen := by
  have hrun (s : Service) (hs : s.Orderly) (idle : s.responder.nextClient ≤ client → s.duty client = .listen)
      (es : List Event) : (s.run es).responder.nextClient ≤ client → (s.run es).duty client = .listen := by
    induction es generalizing s with
    | nil => exact idle
    | cons v es ih => exact ih _ (hs.step v) (step_unopened hs idle)
  exact hrun h.start h.start_orderly (fun _ => rfl) h.events fresh

/-- A session that has just been opened waits for its first request. -/
theorem standing_connect (h : Chronicle) :
    Standing (h.service.step .connect).2 h.responder.nextClient [] :=
  .waiting ⟨{}, Table.get?_insert_self .., rfl, rfl⟩ (h.duty_unopened (Nat.le_refl _)) .nil

end Chronicle

end RouteProgramming
