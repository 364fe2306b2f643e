import RouteProgramming.Proofs.Responder.Conversation

/-! Operation ids over all batches of a session. The session remembers the highest
id that it has seen, whether the operation was carried out or not, so that the
ids of what is carried out rise from one acknowledgment to the next, and an id
that was there before is refused whenever it comes again, with no effect. -/

namespace RouteProgramming

/-- The ids of what is acknowledged as carried out, in order. -/
def Acknowledgment.installedIds (as : List Acknowledgment) : List UInt64 :=
  (as.filter (·.outcome.isInstalled)).map (·.id)

/-! ### One batch -/

namespace Rib

open Acknowledgment (installedIds)

variable {r : Rib} {c : Context} {o : Operation}

theorem lastOperationId_apply (r : Rib) (c : Context) (o : Operation) :
    c.lastOperationId ≤ (r.apply c o).2.1.lastOperationId ∧ o.id ≤ (r.apply c o).2.1.lastOperationId := by
  by_cases hid : o.id = 0 ∨ o.id ≤ c.lastOperationId
  · rw [apply_of_stale hid]
    exact ⟨UInt64.le_refl _, hid.elim (fun h => h ▸ UInt64.zero_le) id⟩
  · rw [apply_of_fresh hid]
    exact ⟨UInt64.le_of_lt (UInt64.not_le.1 fun hle => hid (.inr hle)), UInt64.le_refl _⟩

/-- The last id is at least as high as it was, and as high as every id of the batch. -/
theorem lastOperationId_applyBatch (r : Rib) (c : Context) (os : List Operation) :
    c.lastOperationId ≤ (r.applyBatch c os).2.1.lastOperationId ∧
      ∀ o ∈ os, o.id ≤ (r.applyBatch c os).2.1.lastOperationId := by
  induction os generalizing r c with
  | nil => exact ⟨UInt64.le_refl _, nofun⟩
  | cons o os ih =>
    obtain ⟨hlast, hid⟩ := r.lastOperationId_apply c o
    obtain ⟨hrest, hids⟩ := ih ((r.apply c o).2.2.count (r.apply c o).1) (r.apply c o).2.1
    rw [applyBatch]
    refine ⟨UInt64.le_trans hlast hrest, fun o' ho' => ?_⟩
    rcases List.mem_cons.1 ho' with rfl | ho'
    · exact UInt64.le_trans hid hrest
    · exact hids o' ho'

/-- What is carried out has an id above the last one, and is the last one then. -/
theorem lt_of_isInstalled (h : (acknowledge o (r.apply c o).1).outcome.isInstalled) :
    c.lastOperationId < o.id ∧ (r.apply c o).2.1.lastOperationId = o.id := by
  by_cases hid : o.id = 0 ∨ o.id ≤ c.lastOperationId
  · rw [apply_of_stale hid] at h
    contradiction
  · rw [apply_of_fresh hid]
    exact ⟨UInt64.not_le.1 fun hle => hid (.inr hle), rfl⟩

/-- From the last id before a batch on, the ids of what is carried out rise. -/
theorem pairwise_installedIds (r : Rib) (c : Context) (os : List Operation) :
    (c.lastOperationId :: installedIds (r.applyBatch c os).1).Pairwise (· < ·) := by
  induction os generalizing r c with
  | nil => exact List.pairwise_singleton ..
  | cons o os ih =>
    have hrest := ih ((r.apply c o).2.2.count (r.apply c o).1) (r.apply c o).2.1
    have hid : (acknowledge o (r.apply c o).1).id = o.id := by cases (r.apply c o).1 <;> rfl
    rw [applyBatch, installedIds, List.filter_cons]
    split
    case isTrue hinstalled =>
      obtain ⟨hlt, hlast⟩ := lt_of_isInstalled hinstalled
      rw [hlast] at hrest
      rw [List.map_cons, hid]
      refine List.pairwise_cons.2 ⟨fun i hi => ?_, hrest⟩
      rcases List.mem_cons.1 hi with rfl | hi
      · exact hlt
      · exact UInt64.lt_trans hlt ((List.pairwise_cons.1 hrest).1 i hi)
    case isFalse =>
      obtain ⟨hbelow, hrising⟩ := List.pairwise_cons.1 hrest
      refine List.pairwise_cons.2 ⟨fun i hi => ?_, hrising⟩
      exact UInt64.lt_of_le_of_lt (r.lastOperationId_apply c o).1 (hbelow i hi)

/-- A batch of ids that are no higher than the last one fails as a whole and changes nothing but the statistics. -/
theorem applyBatch_of_stale {os : List Operation} (stale : ∀ o ∈ os, o.id ≤ c.lastOperationId) (r : Rib) :
    (r.applyBatch c os).1 = os.map (fun o => acknowledge o (.error (.staleId o.id c.lastOperationId))) ∧
      (r.applyBatch c os).2.1 = c ∧ (r.applyBatch c os).2.2.instances = r.instances ∧
      (r.applyBatch c os).2.2.plane = r.plane := by
  induction os generalizing r with
  | nil => exact ⟨rfl, rfl, rfl, rfl⟩
  | cons o os ih =>
    have hfirst := apply_of_stale (r := r) (.inr (stale o List.mem_cons_self))
    obtain ⟨hacks, hcontext, hinstances, hplane⟩ := ih (fun o' ho' => stale o' (List.mem_cons_of_mem o ho'))
      (r.count (.error (.staleId o.id c.lastOperationId)))
    rw [applyBatch, hfirst]
    exact ⟨congrArg (acknowledge o _ :: ·) hacks, hcontext, hinstances, hplane⟩

/-- An id that is no higher than the last one, or that comes a second time in a batch, fails wherever it stands in the
batch, and changes nothing there. -/
theorem applyBatch_again {os : List Operation} (again : o.id ≤ c.lastOperationId ∨ ∃ p ∈ os, o.id = p.id) (r : Rib)
    (rest : List Operation) :
    (∃ a, (r.applyBatch c (os ++ o :: rest)).1[os.length]? = some a ∧ a.id = o.id ∧ a.outcome = .failed) ∧
      (r.applyBatch c (os ++ [o])).2.1 = (r.applyBatch c os).2.1 ∧
      (r.applyBatch c (os ++ [o])).2.2.instances = (r.applyBatch c os).2.2.instances ∧
      (r.applyBatch c (os ++ [o])).2.2.plane = (r.applyBatch c os).2.2.plane := by
  obtain ⟨hlast, hids⟩ := r.lastOperationId_applyBatch c os
  have hstale : o.id ≤ (r.applyBatch c os).2.1.lastOperationId := by
    rcases again with hle | ⟨p, hp, hid⟩
    · exact UInt64.le_trans hle hlast
    · exact hid ▸ hids p hp
  have hsingle (o' : Operation) (ho' : o' ∈ [o]) : o'.id ≤ (r.applyBatch c os).2.1.lastOperationId :=
    List.mem_singleton.1 ho' ▸ hstale
  refine ⟨⟨_, r.getElem?_applyBatch c os o rest, ?_⟩, ?_⟩
  · rw [apply_of_stale (.inr hstale)]
    exact ⟨rfl, rfl⟩
  · rw [applyBatch_append]
    exact (applyBatch_of_stale hsingle _).2

end Rib

/-! ### The batches of a session -/

namespace Service

open Responder Acknowledgment

variable {s : Service} {client : ClientId} {v : Event} {id? : Option (ClientId × ElectionId)} {r : Responder}

/-- A batch, with the responder that programs it. -/
structure Batch where
  responder : Responder
  operations : List Operation

namespace Batch

def acknowledgments (client : ClientId) (b : Batch) : List Acknowledgment :=
  (b.responder.program client b.operations).1

theorem ids_acknowledgments (client : ClientId) (b : Batch) :
    (b.acknowledgments client).map (·.id) = b.operations.map (·.id) := by
  have habout := b.responder.rib.map_about_applyBatch (b.responder.context client) b.operations
  have hids := congrArg (List.map (·.1)) habout
  rwa [List.map_map, List.map_map] at hids

end Batch

/-- The batch that a session programs at an event. -/
def batch? (s : Service) (client : ClientId) : Event → Option Batch
  | .proceed other =>
    if other = client then
      match s.duty client with
      | .program operations => some ⟨s.responder, operations⟩
      | _ => none
    else none
  | _ => none

def batches (s : Service) (client : ClientId) : List Event → List Batch
  | [] => []
  | v :: vs => (s.batch? client v).toList ++ (s.step v).2.batches client vs

/-- All operations of some batches, whatever came of them. -/
def submitted (bs : List Batch) : List Operation := bs.flatMap (·.operations)

def acknowledged (client : ClientId) (bs : List Batch) : List Acknowledgment := bs.flatMap (·.acknowledgments client)

theorem batch?_eq_some {b : Batch} (h : s.batch? client v = some b) :
    v = .proceed client ∧ s.duty client = .program b.operations ∧ b.responder = s.responder := by
  cases v with
  | proceed other =>
    rw [batch?] at h
    split at h
    case isTrue hown =>
      split at h
      case h_1 hduty =>
        obtain rfl := Option.some.inj h
        exact ⟨congrArg Event.proceed hown, hduty, rfl⟩
      case h_2 => contradiction
    case isFalse => contradiction
  | connect | request | hangUp | deafen | flush | plane => contradiction

theorem batch?_eq_none_iff : s.batch? client v = none ↔
    ∀ operations, v = .proceed client → s.duty client ≠ .program operations := by
  constructor
  · rintro h operations rfl hduty
    rw [batch?, if_pos rfl, hduty] at h
    contradiction
  · intro h
    refine Option.eq_none_iff_forall_ne_some.2 fun b hb => ?_
    obtain ⟨hv, hduty, -⟩ := batch?_eq_some hb
    exact h b.operations hv hduty

/-! ### The highest id -/

/-- Programming a batch leaves the session its highest id. -/
theorem get?_runBatch_self (r : Responder) (client : ClientId) (operations : List Operation) :
    (r.runBatch client operations).state.sessions.get? client = (r.sessions.get? client).map ({ · with
      lastOperationId := (r.rib.applyBatch (r.context client) operations).2.1.lastOperationId }) := by
  cases operations with
  | nil =>
    cases hsession : r.sessions.get? client with
    | none => exact hsession
    | some session =>
      have hlast : (r.context client).lastOperationId = session.lastOperationId := by
        rw [context, hsession, Option.getD_some]
      rw [Rib.applyBatch, hlast]
      exact hsession
  | cons o os =>
    rw [runBatch, state_respond, program]
    · exact (get?_updateSession ..).trans (if_pos rfl)
    · exact List.cons_ne_nil _ _

/-- A session is new, or it has the highest id that it had, unless it programs a batch. -/
theorem Stepped.lastOperationId {session : Session} (h : Stepped s v id? r) (quiet : s.batch? client v = none)
    (hsession : r.sessions.get? client = some session) : client = s.responder.nextClient ∨
      ∃ old, s.responder.sessions.get? client = some old ∧ session.lastOperationId = old.lastOperationId := by
  cases h with
  | idle | flushed | changed => exact .inr ⟨session, hsession, rfl⟩
  | connected =>
    rw [connect] at hsession
    dsimp only at hsession
    rw [Table.get?_insert] at hsession
    split at hsession
    case isTrue hnew => exact .inl hnew
    case isFalse => exact .inr ⟨session, hsession, rfl⟩
  | deafened | settled | presented =>
    obtain ⟨old, hold, rfl⟩ := session_of_updateSession hsession
    exact .inr ⟨old, hold, by split <;> rfl⟩
  | @programmed other operations turn =>
    have hne : client ≠ other := by
      rintro rfl
      exact batch?_eq_none_iff.1 quiet operations rfl turn
    rw [get?_program_of_ne _ _ hne] at hsession
    exact .inr ⟨session, hsession, rfl⟩
  | closed =>
    rw [disconnect_eq] at hsession
    dsimp only at hsession
    rw [Table.get?_erase] at hsession
    split at hsession
    · contradiction
    · exact .inr ⟨session, hsession, rfl⟩

/-- An open session remembers an id that is as high as all that it has seen, and the ids of what was carried out
rise from above zero on. -/
structure Spent (r : Responder) (client : ClientId) (bs : List Batch) : Prop where
  past : bs ≠ [] → client < r.nextClient
  used : ∀ session, r.sessions.get? client = some session → ∀ o ∈ submitted bs, o.id ≤ session.lastOperationId
  rising : (0 :: installedIds (acknowledged client bs)).Pairwise (· < ·)

theorem exists_of_mem_installedIds {bs : List Batch} {i : UInt64} (h : i ∈ installedIds (acknowledged client bs)) :
    ∃ o ∈ submitted bs, o.id = i := by
  obtain ⟨a, ha, rfl⟩ := List.mem_map.1 h
  obtain ⟨b, hb, hab⟩ := List.mem_flatMap.1 (List.mem_filter.1 ha).1
  have hid : a.id ∈ b.operations.map (·.id) := b.ids_acknowledgments client ▸ List.mem_map_of_mem hab
  obtain ⟨o, ho, heq⟩ := List.mem_map.1 hid
  exact ⟨o, List.mem_flatMap.2 ⟨b, hb, ho⟩, heq⟩

theorem submitted_concat (bs : List Batch) (b : Batch) : submitted (bs ++ [b]) = submitted bs ++ b.operations := by
  simp [submitted]

theorem installedIds_concat (client : ClientId) (bs : List Batch) (b : Batch) :
    installedIds (acknowledged client (bs ++ [b])) =
      installedIds (acknowledged client bs) ++ installedIds (b.acknowledgments client) := by
  simp [installedIds, acknowledged]

theorem Spent.program {bs : List Batch} {b : Batch} (hs : s.Orderly) (h : Spent s.responder client bs)
    (hb : s.batch? client v = some b) : Spent (s.step v).2.responder client (bs ++ [b]) := by
  obtain ⟨rfl, hduty, hresponder⟩ := batch?_eq_some hb
  have hsettled : (s.responder.parameters? client).isSome := by simpa [hduty] using hs.settled client
  obtain ⟨params, hparams⟩ := Option.isSome_iff_exists.1 hsettled
  obtain ⟨old, hold, -⟩ := Option.bind_eq_some_iff.1 hparams
  have hlast : (s.responder.context client).lastOperationId = old.lastOperationId := by
    rw [context, hold, Option.getD_some]
  have hbatch := s.responder.rib.lastOperationId_applyBatch (s.responder.context client) b.operations
  have hrising := s.responder.rib.pairwise_installedIds (s.responder.context client) b.operations
  rw [hlast] at hbatch hrising
  refine ⟨fun _ => ?_, fun session hsession o ho => ?_, ?_⟩
  · exact Nat.lt_of_lt_of_le (hs.numbered client old hold) (step_cases hs _).nextClient_le
  · rw [step, hduty, responder_conclude, get?_runBatch_self, hold] at hsession
    obtain rfl := Option.some.inj hsession
    rcases List.mem_append.1 (submitted_concat bs b ▸ ho) with ho | ho
    · exact UInt64.le_trans (h.used old hold o ho) hbatch.1
    · exact hbatch.2 o ho
  · -- all that was carried out before has an id that is no higher than the last one
    have hacks : b.acknowledgments client =
        (s.responder.rib.applyBatch (s.responder.context client) b.operations).1 := by
      rw [Batch.acknowledgments, hresponder, Responder.program]
    obtain ⟨hpositive, hbefore⟩ := List.pairwise_cons.1 h.rising
    obtain ⟨habove, hnew⟩ := List.pairwise_cons.1 (hacks ▸ hrising)
    rw [installedIds_concat]
    refine List.pairwise_cons.2 ⟨fun i hi => ?_, List.pairwise_append.2 ⟨hbefore, hnew, fun i hi j hj => ?_⟩⟩
    · rcases List.mem_append.1 hi with hi | hi
      · exact hpositive i hi
      · exact UInt64.lt_of_le_of_lt UInt64.zero_le (habove i hi)
    · obtain ⟨o, ho, rfl⟩ := exists_of_mem_installedIds hi
      exact UInt64.lt_of_le_of_lt (h.used old hold o ho) (habove j hj)

theorem Spent.step {bs : List Batch} (hs : s.Orderly) (h : Spent s.responder client bs) (v : Event) :
    Spent (s.step v).2.responder client (bs ++ (s.batch? client v).toList) := by
  have hstep := step_cases hs v
  cases hb : s.batch? client v with
  | some b => exact h.program hs hb
  | none =>
    rw [Option.toList_none, List.append_nil]
    refine ⟨fun hbs => Nat.lt_of_lt_of_le (h.past hbs) hstep.nextClient_le, fun session hsession o ho => ?_, h.rising⟩
    rcases hstep.lastOperationId hb hsession with hnew | ⟨old, hold, hlast⟩
    · -- nobody has had the number of a new session before
      have hbs : bs ≠ [] := by
        rintro rfl
        contradiction
      exact absurd (h.past hbs) (hnew ▸ Nat.lt_irrefl _)
    · rw [hlast]
      exact h.used old hold o ho

theorem Spent.run {bs : List Batch} (hs : s.Orderly) (h : Spent s.responder client bs) (es : List Event) :
    Spent (s.run es).responder client (bs ++ s.batches client es) := by
  induction es generalizing s bs with
  | nil => rwa [batches, List.append_nil]
  | cons v es ih =>
    rw [batches, ← List.append_assoc]
    exact ih (hs.step v) (h.step hs v)

/-! ### What the client is told -/

theorem results_respond (r : Responder) (client : ClientId) (m : ModifyResponse) :
    ((r.respond client m).responses.flatMap (·.results)).Sublist m.results := by
  rw [respond]
  split
  · simp
  · exact List.nil_sublist _

theorem results_settle (r : Responder) (client : ClientId) (params : Option Parameters) :
    (r.settle client params).responses.flatMap (·.results) = [] := by
  unfold settle respond Progress.andThen
  dsimp only
  repeat' split
  all_goals simp_all

theorem results_elect (r : Responder) (client : ClientId) (id? : Option ElectionId) :
    (r.elect client id?).responses.flatMap (·.results) = [] := by
  cases id? with
  | none => rfl
  | some id =>
    rw [elect]
    split
    · exact List.sublist_nil.1 (results_respond ..)
    · rfl

theorem results_runBatch (r : Responder) (client : ClientId) (operations : List Operation) :
    ((r.runBatch client operations).responses.flatMap (·.results)).Sublist (r.program client operations).1 := by
  cases operations with
  | nil => exact List.nil_sublist _
  | cons => exact results_respond ..

theorem results_conclude (s : Service) (client : ClientId) (p : Progress) (next : Duty) :
    (s.conclude client p next).1.flatMap (·.results) = p.responses.flatMap (·.results) := by
  rw [conclude]
  split
  · rfl
  · rw [List.flatMap_append]
    split <;> simp

/-- A client is told no acknowledgments but those of its session's batch. -/
theorem results_said (s : Service) (client : ClientId) (v : Event) :
    ((s.said client v).flatMap (·.results)).Sublist (acknowledged client (s.batch? client v).toList) := by
  rw [said]
  split
  case isFalse => exact List.nil_sublist _
  case isTrue own =>
    cases v with
    | connect | hangUp | deafen => exact List.nil_sublist _
    | request other request =>
      obtain rfl := Option.some.inj own
      rw [step]
      split
      · rw [results_conclude, results_settle]
        exact List.nil_sublist _
      · exact List.nil_sublist _
    | proceed other =>
      obtain rfl := Option.some.inj own
      rw [step, batch?, if_pos rfl]
      cases s.duty other with
      | listen | leave => exact List.nil_sublist _
      | elect id? operations =>
        dsimp only
        rw [results_conclude, results_elect]
        exact List.nil_sublist _
      | program operations =>
        dsimp only
        rw [results_conclude, Option.toList_some, acknowledged, List.flatMap_singleton]
        exact results_runBatch ..
    | flush | plane => contradiction

theorem results_heard (s : Service) (client : ClientId) (es : List Event) :
    ((s.heard client es).flatMap (·.results)).Sublist (acknowledged client (s.batches client es)) := by
  induction es generalizing s with
  | nil => exact List.nil_sublist _
  | cons v es ih =>
    rw [heard, batches, acknowledged, List.flatMap_append, List.flatMap_append]
    exact (s.results_said client v).append (ih _)

end Service

namespace Responder

variable {r : Responder} {client : ClientId} {session : Session} {operations : List Operation}

/-- Operations come to nothing: every one of them fails, and no session and no table is changed. -/
structure Vain (r : Responder) (client : ClientId) (operations : List Operation) : Prop where
  failed : (r.program client operations).1.map (fun a => (a.id, a.op, a.key, a.outcome)) =
    operations.map (fun o => (o.id, o.op, o.key, .failed))
  sessions : (r.program client operations).2.sessions = r.sessions
  instances : (r.program client operations).2.rib.instances = r.rib.instances
  plane : (r.program client operations).2.rib.plane = r.rib.plane

theorem Vain.outcome_of_mem (h : r.Vain client operations) {a : Acknowledgment}
    (ha : a ∈ (r.program client operations).1) : a.outcome = .failed := by
  have hmem := List.mem_map_of_mem (f := fun a => (a.id, a.op, a.key, a.outcome)) ha
  rw [h.failed] at hmem
  obtain ⟨o, -, heq⟩ := List.mem_map.1 hmem
  exact (Prod.mk.inj (Prod.mk.inj (Prod.mk.inj heq).2).2).2.symm

theorem vain_of_stale (hsession : r.sessions.get? client = some session)
    (stale : ∀ o ∈ operations, o.id ≤ session.lastOperationId) : r.Vain client operations := by
  have hlast : (r.context client).lastOperationId = session.lastOperationId := by
    rw [context, hsession, Option.getD_some]
  obtain ⟨hacks, hcontext, hinstances, hplane⟩ := Rib.applyBatch_of_stale (hlast ▸ stale) r.rib
  refine ⟨?_, ?_, hinstances, hplane⟩
  · rw [program]
    dsimp only
    rw [hacks, List.map_map]
    rfl
  · have hsame : (r.program client operations).2.sessions = r.sessions.modify client ({ · with
        lastOperationId := (r.rib.applyBatch (r.context client) operations).2.1.lastOperationId }) := rfl
    rw [hsame, hcontext, hlast, Table.modify_eq_insert hsession]
    exact Table.insert_eq_self hsession

end Responder

namespace Chronicle

open Responder Service Acknowledgment

variable {h : Chronicle} {client : ClientId}

/-- The batches that a session has programmed. -/
def batches (h : Chronicle) (client : ClientId) : List Batch := h.start.batches client h.events

theorem spent (h : Chronicle) (client : ClientId) : Spent h.responder client (h.batches client) := by
  have hstart : Spent h.start.responder client [] :=
    ⟨fun hne => absurd rfl hne, fun _ _ _ => nofun, List.pairwise_singleton ..⟩
  exact hstart.run h.start_orderly h.events

/-- An open session remembers an id that is as high as that of any operation it has seen. -/
theorem lastOperationId_ge {id : UInt64} (opened : h.responder.isOpen client)
    (seen : ∃ p ∈ submitted (h.batches client), id = p.id) : ∃ session,
      h.responder.sessions.get? client = some session ∧ id ≤ session.lastOperationId := by
  obtain ⟨session, hsession⟩ := Table.contains_iff.1 opened
  obtain ⟨p, hp, rfl⟩ := seen
  exact ⟨session, hsession, (h.spent client).used session hsession p hp⟩

/-- Whatever a session has seen the id of before comes to nothing. -/
theorem vain_of_again {os : List Operation} (opened : h.responder.isOpen client)
    (again : ∀ o ∈ os, ∃ p ∈ submitted (h.batches client), o.id = p.id) : h.responder.Vain client os := by
  obtain ⟨session, hsession⟩ := Table.contains_iff.1 opened
  refine vain_of_stale hsession fun o ho => ?_
  obtain ⟨session', hsession', hle⟩ := lastOperationId_ge opened (again o ho)
  obtain rfl := Option.some.inj (hsession.symm.trans hsession')
  exact hle

/-- The ids of what a session has carried out are above zero and rise from one acknowledgment to the next, so that
none comes twice; and an operation with an id that the session has seen before, whatever came of it then, fails at any
place of a batch and changes no table and no highest id there, and so does a batch of nothing else. -/
theorem ids_never_again (h : Chronicle) (client : ClientId) :
    (∀ i ∈ installedIds (acknowledged client (h.batches client)), 0 < i) ∧
    (installedIds (acknowledged client (h.batches client))).Pairwise (· < ·) ∧
    ((h.heard client).flatMap (·.results)).Sublist (acknowledged client (h.batches client)) ∧
    (h.responder.isOpen client → ∀ os o rest, (∃ p ∈ submitted (h.batches client) ++ os, o.id = p.id) →
      (∃ a, (h.responder.program client (os ++ o :: rest)).1[os.length]? = some a ∧ a.id = o.id ∧
        a.outcome = .failed) ∧
      (h.responder.program client (os ++ [o])).2.sessions = (h.responder.program client os).2.sessions ∧
      (h.responder.program client (os ++ [o])).2.rib.instances =
        (h.responder.program client os).2.rib.instances ∧
      (h.responder.program client (os ++ [o])).2.rib.plane = (h.responder.program client os).2.rib.plane) ∧
    ∀ os, (∀ o ∈ os, ∃ p ∈ submitted (h.batches client), o.id = p.id) →
      (h.responder.isOpen client → h.responder.Vain client os) ∧
      (h.service.duty client = .program os →
        (∀ a ∈ (h.service.step (.proceed client)).1.flatMap (·.results), a.outcome = .failed) ∧
        (h.service.step (.proceed client)).2.responder.sessions = h.responder.sessions ∧
        (h.service.step (.proceed client)).2.responder.rib.instances = h.responder.rib.instances ∧
        (h.service.step (.proceed client)).2.responder.rib.plane = h.responder.rib.plane) := by
  obtain ⟨hpositive, hrising⟩ := List.pairwise_cons.1 (h.spent client).rising
  refine ⟨hpositive, hrising, results_heard .., fun opened os o rest seen => ?_, fun os again =>
    ⟨fun opened => vain_of_again opened again, fun hduty => ?_⟩⟩
  · have hagain : o.id ≤ (h.responder.context client).lastOperationId ∨ ∃ p ∈ os, o.id = p.id := by
      obtain ⟨p, hp, hid⟩ := seen
      refine (List.mem_append.1 hp).imp (fun hp => ?_) fun hp => ⟨p, hp, hid⟩
      obtain ⟨session, hsession, hle⟩ := lastOperationId_ge opened ⟨p, hp, hid⟩
      rwa [context, hsession, Option.getD_some]
    obtain ⟨hfails, hcontext, hinstances, hplane⟩ := Rib.applyBatch_again hagain h.responder.rib rest
    refine ⟨hfails, ?_, hinstances, hplane⟩
    rw [program, program]
    dsimp only
    rw [hcontext]
    rfl
  · have hsettled : (h.service.responder.parameters? client).isSome := by
      simpa [hduty] using h.orderly.settled client
    obtain ⟨params, hparams⟩ := Option.isSome_iff_exists.1 hsettled
    have hvain : h.responder.Vain client os := vain_of_again (isOpen_of_parameters? hparams) again
    have hstep : h.service.step (.proceed client) =
        h.service.conclude client (h.responder.runBatch client os) .listen := by rw [step, hduty]; rfl
    rw [hstep, results_conclude, responder_conclude]
    refine ⟨fun a ha => hvain.outcome_of_mem ((results_runBatch ..).subset ha), ?_⟩
    rcases h.responder.runBatch_cases client os with same | same
    · rw [same]
      exact ⟨rfl, rfl, rfl⟩
    · rw [same]
      exact ⟨hvain.sessions, hvain.instances, hvain.plane⟩

/-! ### An example -/

/-- A client repeats, out of order, ids that were carried out, out of order, or zero. -/
def repetition (events : List Event) : Chronicle where
  config := {}
  events :=
    let write (id : UInt64) : Operation := { writeNextHop none with id }
    .connect :: (.request 1 { operations := [write 3, write 1, write 0, write 5] } :: turns 1 2) ++
      .request 1 { operations := [write 5, write 1, write 0] } :: .proceed 1 :: events

/-- Only the ids 3 and 5 are carried out, once each. -/
theorem ids_never_again_repetition :
    installedIds (acknowledged 1 ((repetition []).batches 1)) = [3, 5] ∧
    (repetition []).responder.isOpen 1 ∧
    (repetition []).service.duty 1 = .program (([5, 1, 0] : List UInt64).map ({ writeNextHop none with id := · })) ∧
    (repetition []).responder.Vain 1 (([5, 1, 0] : List UInt64).map ({ writeNextHop none with id := · })) ∧
    (repetition [.proceed 1]).responder.rib.instances = (repetition []).responder.rib.instances := by
  have hopen : (repetition []).responder.isOpen 1 := by decide +kernel
  have hduty : (repetition []).service.duty 1 =
      .program (([5, 1, 0] : List UInt64).map ({ writeNextHop none with id := · })) := by decide +kernel
  have hall := (repetition []).ids_never_again 1
  have hagain : ∀ o ∈ ([5, 1, 0] : List UInt64).map ({ writeNextHop none with id := · }),
      ∃ p ∈ submitted ((repetition []).batches 1), o.id = p.id := by decide +kernel
  obtain ⟨hvain, hstep⟩ := hall.2.2.2.2 _ hagain
  exact ⟨by decide +kernel, hopen, hduty, hvain hopen, (hstep hduty).2.2.1⟩

end Chronicle

end RouteProgramming
