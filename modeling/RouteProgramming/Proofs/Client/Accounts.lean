import Mathlib.Data.List.Basic
import Mathlib.Data.List.Nodup
import RouteProgramming.Proofs.Client.Transit

/-! What a client has noted down. Its results since the start are what the
responses say that it has looked at; the numbers that it has given out are
distinct, and the ones it waits for are those of the operations that have been
sent and not yet acknowledged. It is less exact about the other two kinds of
answers, for which it only notes that there is one to come. -/

namespace RouteProgramming

/-! ### Sets of numbers -/

namespace KeySet

/-- A set has the members of a list. -/
def Lists (s : KeySet UInt64) (ids : List UInt64) : Prop := ∀ id, s.contains id ↔ id ∈ ids

variable {s : KeySet UInt64} {ids : List UInt64}

theorem lists_empty : Lists ∅ [] := fun _ => ⟨nofun, nofun⟩

theorem Lists.insert_all (h : Lists s ids) (new : List UInt64) :
    Lists (new.foldl (fun s id => s.insert id ()) s) (ids ++ new) := by
  induction new generalizing s ids with
  | nil => rwa [List.append_nil]
  | cons n new ih =>
    have hone : Lists (s.insert n ()) (ids ++ [n]) := fun id => by
      rw [Table.contains, Table.get?_insert, List.mem_append, List.mem_singleton, ← h id, Table.contains]
      split
      case isTrue heq => simp [heq]
      case isFalse hne => simp [hne]
    simpa using ih hone

/-- The numbers of a list without repetitions leave a set in any order. -/
theorem Lists.erase_all {gone : List UInt64} (h : Lists s (gone ++ ids)) (distinct : (gone ++ ids).Nodup) :
    Lists (gone.foldl (fun s id => s.erase id) s) ids := by
  induction gone generalizing s with
  | nil => exact h
  | cons g gone ih =>
    obtain ⟨hnew, hdistinct⟩ := List.nodup_cons.1 distinct
    refine ih (fun id => ?_) hdistinct
    rw [Table.contains, Table.get?_erase]
    split
    case isTrue heq => simpa [heq] using hnew
    case isFalse hne =>
      rw [← Table.contains, h id, List.cons_append, List.mem_cons]
      exact or_iff_right hne

theorem Lists.eq_nil (h : Lists s ids) (empty : s.size = 0) : ids = [] := by
  refine List.eq_nil_iff_forall_not_mem.2 fun id hid => ?_
  have hrows : s.rows = [] := List.length_eq_zero_iff.1 empty
  have hmem := (h id).2 hid
  rw [Table.contains, Table.get?, hrows] at hmem
  contradiction

theorem Lists.eq_empty (h : Lists s []) : s = ∅ := by
  refine Table.ext_get? fun id => Option.eq_none_iff_forall_ne_some.2 fun u hu => ?_
  exact absurd ((h id).1 (Table.contains_iff.2 ⟨u, hu⟩)) List.not_mem_nil

end KeySet

/-- What an entry of the results acknowledges, if anything. -/
def Received.subject? (r : Received) : Option (UInt64 × OperationType × EntryKey) :=
  match r.operationId, r.op, r.key with
  | some id, some op, some key => some (id, op, key)
  | _, _, _ => none

@[simp] theorem Received.subject?_params (result : ParametersResult) :
    ({ params := some result } : Received).subject? = none := rfl

@[simp] theorem Received.subject?_electionId (id : ElectionId) :
    ({ electionId := some id } : Received).subject? = none := rfl

@[simp] theorem Received.subject?_ofAcknowledgment (a : Acknowledgment) :
    (Received.ofAcknowledgment a).subject? = some a.subject := rfl

namespace Client

variable {c : Client} {m : ModifyResponse}

/-! ### One response -/

/-- What a client keeps of a response. -/
def recorded (m : ModifyResponse) : List Received :=
  m.paramsResult.toList.map (fun result => { params := some result }) ++
    m.electionId.toList.map (fun id => { electionId := some id }) ++ m.results.map .ofAcknowledgment

theorem subjects_recorded (m : ModifyResponse) :
    (recorded m).filterMap (·.subject?) = m.results.map Acknowledgment.subject := by
  simp [recorded, List.filterMap_map, Function.comp_def]

theorem params_recorded (m : ModifyResponse) : (recorded m).filterMap (·.params) = m.paramsResult.toList := by
  simp [recorded, List.filterMap_map, Function.comp_def, Received.ofAcknowledgment]

theorem elections_recorded (m : ModifyResponse) : (recorded m).filterMap (·.electionId) = m.electionId.toList := by
  simp [recorded, List.filterMap_map, Function.comp_def, Received.ofAcknowledgment]

theorem foldl_acceptAcknowledgment (acks : List Acknowledgment) (c : Client) : acks.foldl acceptAcknowledgment c =
    { c with
      pending := { c.pending with
        operations := (acks.map (·.id)).foldl (fun s id => s.erase id) c.pending.operations }
      results := c.results ++ acks.map .ofAcknowledgment } := by
  induction acks generalizing c with
  | nil => simp
  | cons a acks ih =>
    rw [List.foldl_cons, ih]
    simp [acceptAcknowledgment]

/-- A client after a response that says one thing only. -/
theorem accept_plain (plain : m.Plain) (c : Client) : (c.accept m).2 =
    { c with
      pending := {
        params := c.pending.params && m.paramsResult.isNone
        election := c.pending.election && m.electionId.isNone
        operations := (m.results.map (·.id)).foldl (fun s id => s.erase id) c.pending.operations }
      results := c.results ++ recorded m } := by
  cases plain with
  | params result => cases result <;> simp [accept, acceptParams, recorded, acceptElection]
  | election primary => simp [accept, acceptParams, recorded, acceptElection]
  | results acks => simp [accept, acceptParams, recorded, acceptElection, foldl_acceptAcknowledgment]
  | farewell reason => simp [accept, acceptParams, recorded, acceptElection]

/-! ### Numbers -/

theorem ids_numbered (election? : Option ElectionId) (next : UInt64) (built : List (OperationType × String × Entry)) :
    (numbered election? next built).map (·.id) = (List.range built.length).map (next + UInt64.ofNat ·) := by
  induction built generalizing next with
  | nil => rfl
  | cons b built ih =>
    obtain ⟨op, ni, entry⟩ := b
    have hshift (i : Nat) : next + 1 + UInt64.ofNat i = next + UInt64.ofNat (i + 1) := by
      rw [UInt64.add_assoc, Nat.add_comm i, UInt64.ofNat_add]
      rfl
    rw [numbered, List.map_cons, ih, List.length_cons, List.range_succ_eq_map, List.map_cons, List.map_map]
    simp [hshift, Function.comp_def]

theorem length_buildAll {batch : List (OperationType × EntryDraft)} {built : List (OperationType × String × Entry)}
    (h : buildAll batch = .ok built) : built.length = batch.length := by
  induction batch generalizing built with
  | nil => cases h; rfl
  | cons b batch ih =>
    obtain ⟨op, draft⟩ := b
    rw [buildAll] at h
    split at h
    case h_1 | h_2 => contradiction
    case h_3 hmore =>
      cases h
      rw [List.length_cons, List.length_cons, ih hmore]

/-- The numbers of two batches are those of one. -/
theorem numbers_add (first : UInt64) (j k : Nat) : (List.range (j + k)).map (first + UInt64.ofNat ·) =
    (List.range j).map (first + UInt64.ofNat ·) ++ (List.range k).map (first + UInt64.ofNat j + UInt64.ofNat ·) := by
  rw [List.range_add, List.map_append, List.map_map]
  refine congrArg _ (List.map_congr_left fun i _ => ?_)
  rw [Function.comp_apply, UInt64.ofNat_add, UInt64.add_assoc]

/-- As many numbers as there are do not repeat. -/
theorem nodup_numbers (first : UInt64) {k : Nat} (room : k ≤ UInt64.size) :
    ((List.range k).map (first + UInt64.ofNat ·)).Nodup := by
  refine List.Nodup.map_on (fun i hi j hj heq => ?_) List.nodup_range
  have hnat := congrArg UInt64.toNat ((UInt64.add_right_inj first).1 heq)
  have hlt {i : Nat} (hi : i ∈ List.range k) : i < UInt64.size := Nat.lt_of_lt_of_le (List.mem_range.1 hi) room
  rwa [UInt64.toNat_ofNat_of_lt' (hlt hi), UInt64.toNat_ofNat_of_lt' (hlt hj)] at hnat

end Client

namespace Exchange

open Service Responder

variable {e f : Exchange} {c : Client} {k : Nat}

/-! ### The books of a client -/

/-- The acknowledgments that the client has looked at, oldest first. -/
def acknowledged (e : Exchange) : List Acknowledgment := e.received.flatMap (·.results)

/-- Since it has started as the given client, a client has kept its books. It has given out so many numbers. -/
structure Accounts (c : Client) (e : Exchange) (k : Nat) : Prop where
  results : e.client.results = c.results ++ e.received.flatMap Client.recorded
  next : e.client.nextOperationId = c.nextOperationId + UInt64.ofNat k
  numbers : (e.submitted.map (·.id)).Sublist ((List.range k).map (c.nextOperationId + UInt64.ofNat ·))
  operations : k ≤ UInt64.size → ∃ owed, e.submitted.map (·.id) = e.acknowledged.map (·.id) ++ owed ∧
    KeySet.Lists e.client.pending.operations owed
  params : e.sent.filterMap (·.params) ≠ [] → e.client.pending.params = false →
    e.received.filterMap (·.paramsResult) ≠ []

theorem start_accounts (h : Chronicle) (c : Client) : Accounts c (start h c) 0 :=
  ⟨(List.append_nil _).symm, (UInt64.add_zero _).symm, .slnil, fun _ => ⟨[], rfl, KeySet.lists_empty⟩,
    fun hne => absurd rfl hne⟩

/-- The same responses have been looked at, and requests without operations have been sent. -/
theorem Accounts.congr (ha : Accounts c e k) (results : f.client.results = e.client.results)
    (next : f.client.nextOperationId = e.client.nextOperationId)
    (operations : f.client.pending.operations = e.client.pending.operations)
    (received : f.received = e.received) (submitted : f.submitted = e.submitted)
    (params : f.client.pending.params = false →
      e.client.pending.params = false ∧ f.sent.filterMap (·.params) = e.sent.filterMap (·.params)) :
    Accounts c f k := by
  refine ⟨?_, ?_, ?_, ?_, fun hsent hpending => ?_⟩
  · rw [results, received, ha.results]
  · rw [next, ha.next]
  · rw [submitted]
    exact ha.numbers
  · rw [operations, submitted, acknowledged, received]
    exact ha.operations
  · obtain ⟨hbefore, hsame⟩ := params hpending
    rw [received]
    exact ha.params (hsame ▸ hsent) hbefore

theorem Accounts.startSending (ha : Accounts c e k) : Accounts c e.startSending.2 k := by
  rw [Exchange.startSending]
  rcases post_cases { e with client := e.client.introduced } e.client.introduction with same | same
  · rw [same]
    exact ha.congr rfl rfl rfl rfl rfl nofun
  · rw [same]
    refine ha.congr rfl rfl rfl rfl ?_ nofun
    exact (submitted_posted ..).trans (List.append_nil _)

theorem Accounts.updateElectionId (ha : Accounts c e k) (id : ElectionId) :
    Accounts c (e.updateElectionId id).2 k := by
  rw [Exchange.updateElectionId]
  rcases post_cases { e with client := e.client.presenting id } { electionId := some id } with same | same
  · rw [same]
    exact ha.congr rfl rfl rfl rfl rfl fun hpending => ⟨hpending, rfl⟩
  · rw [same]
    refine ha.congr rfl rfl rfl rfl ?_ fun hpending => ⟨hpending, ?_⟩
    · exact (submitted_posted ..).trans (List.append_nil _)
    · exact (filterMap_posted ..).trans (List.append_nil _)

theorem Accounts.modify (ha : Accounts c e k) (batch : List (OperationType × EntryDraft)) :
    ∃ j ≤ k + batch.length, Accounts c (e.modify batch).2 j := by
  rcases e.modify_cases batch with same | ⟨built, hbuilt, hcases⟩
  · rw [same]
    exact ⟨k, Nat.le_add_right _ _, ha⟩
  have hids : (e.client.number built).1.map (·.id) =
      (List.range built.length).map (e.client.nextOperationId + UInt64.ofNat ·) := Client.ids_numbered ..
  have hlength : (e.client.number built).1.length = built.length := by
    simpa using congrArg List.length hids
  have hnext : (e.client.number built).2.nextOperationId = c.nextOperationId + UInt64.ofNat (k + built.length) := by
    rw [UInt64.ofNat_add, ← UInt64.add_assoc, ← ha.next, ← hlength]
    rfl
  have hrange : (List.range (k + built.length)).map (c.nextOperationId + UInt64.ofNat ·) =
      (List.range k).map (c.nextOperationId + UInt64.ofNat ·) ++ (e.client.number built).1.map (·.id) := by
    rw [hids, ha.next, Client.numbers_add]
  have hbefore (room : k + built.length ≤ UInt64.size) := ha.operations (Nat.le_trans (Nat.le_add_right k _) room)
  refine ⟨k + built.length, Nat.le_of_eq (congrArg (k + ·) (Client.length_buildAll hbuilt)), ?_⟩
  rcases hcases with same | same
  · rw [same]
    refine ⟨ha.results, hnext, ?_, hbefore, ha.params⟩
    rw [hrange]
    exact ha.numbers.trans (List.sublist_append_left ..)
  · rw [same]
    have hsubmitted : (e.posted { operations := (e.client.number built).1 }).submitted.map (·.id) =
        e.submitted.map (·.id) ++ (e.client.number built).1.map (·.id) := by
      rw [submitted_posted, List.map_append]
    have hparams : (e.posted { operations := (e.client.number built).1 }).sent.filterMap (·.params) =
        e.sent.filterMap (·.params) := (filterMap_posted ..).trans (List.append_nil _)
    refine ⟨ha.results, hnext, ?_, fun room => ?_, fun hsent => ha.params (hparams ▸ hsent)⟩
    · rw [hrange]
      exact hsubmitted ▸ ha.numbers.append (List.Sublist.refl _)
    · obtain ⟨owed, hsplit, hlists⟩ := hbefore room
      refine ⟨_, hsubmitted.trans ?_, hlists.insert_all _⟩
      rw [hsplit, List.append_assoc]
      rfl

/-- The responses that have come first are about the operations that were sent first. -/
theorem InTransit.subjects_first {ms : List ModifyResponse} (hin : InTransit e)
    (first : ms <+: e.received ++ e.client.inbox) :
    (ms.flatMap (·.results)).map Acknowledgment.subject <+: e.submitted.map Operation.subject := by
  obtain ⟨rest, hrest⟩ := first
  refine List.IsPrefix.trans ?_ hin.subjects
  rw [← hrest, List.flatMap_append, List.map_append]
  exact List.prefix_append ..

theorem Accounts.look (hin : InTransit e) (ha : Accounts c e k) : Accounts c e.look.2 k := by
  rcases e.look_cases hin.on with same | ⟨m, inbox, hinbox, same⟩
  · rwa [same]
  have hfirst : e.received ++ [m] <+: e.received ++ e.client.inbox :=
    ⟨inbox, by rw [hinbox, List.append_assoc, List.singleton_append]⟩
  have hplain : m.Plain := hin.plain m (hfirst.subset (List.mem_append_right _ (List.mem_singleton_self m)))
  have hacks : (e.received ++ [m]).flatMap (·.results) = e.acknowledged ++ m.results := by
    rw [List.flatMap_append, List.flatMap_singleton, acknowledged]
  rw [same, Client.accept_plain hplain]
  refine ⟨?_, ha.next, ha.numbers, fun room => ?_, fun hsent hpending => ?_⟩
  · dsimp only
    rw [ha.results, List.append_assoc, List.flatMap_append, List.flatMap_singleton]
  · -- the response acknowledges the oldest of the operations that are waited for
    obtain ⟨owed, hsplit, hlists⟩ := ha.operations room
    obtain ⟨rest, hrest⟩ : (e.acknowledged ++ m.results).map (·.id) <+: e.submitted.map (·.id) := by
      have hids := (hin.subjects_first hfirst).map Prod.fst
      rwa [hacks, List.map_map, List.map_map] at hids
    have howed : m.results.map (·.id) ++ rest = owed := by
      rw [hsplit, List.map_append, List.append_assoc] at hrest
      exact List.append_cancel_left hrest
    have hdistinct : (m.results.map (·.id) ++ rest).Nodup := by
      have hall := ha.numbers.nodup (Client.nodup_numbers _ room)
      rw [hsplit] at hall
      exact howed ▸ (List.nodup_append.1 hall).2.1
    refine ⟨rest, ?_, KeySet.Lists.erase_all (howed ▸ hlists) hdistinct⟩
    rw [acknowledged]
    exact hrest.symm.trans (congrArg (fun acks => acks.map (·.id) ++ rest) hacks.symm)
  · dsimp only at hpending ⊢
    rw [List.filterMap_append]
    rw [Bool.and_eq_false_iff, Option.isNone_eq_false_iff] at hpending
    rcases hpending with hbefore | hnow
    · exact List.append_ne_nil_of_left_ne_nil (ha.params hsent hbefore) _
    · obtain ⟨result, hresult⟩ := Option.isSome_iff_exists.1 hnow
      simp [hresult]

theorem Accounts.happen {v : Event} {outbox : List ModifyRequest} (ha : Accounts c e k) :
    Accounts c { e.happen v with outbox } k :=
  ha.congr rfl rfl rfl rfl rfl fun hpending => ⟨hpending, rfl⟩

/-- How many numbers a call gives out at most. -/
def Action.size : Action → Nat
  | .modify batch => batch.length
  | _ => 0

def Action.total : List Action → Nat
  | [] => 0
  | a :: actions => a.size + total actions

theorem Accounts.step (hin : InTransit e) (ha : Accounts c e k) (a : Action) :
    ∃ j ≤ k + a.size, Accounts c (e.step a) j := by
  have hnone (hafter : Accounts c (e.step a) k) : ∃ j ≤ k + a.size, Accounts c (e.step a) j :=
    ⟨k, Nat.le_add_right k _, hafter⟩
  cases a with
  | configure | cut => exact hnone (ha.congr rfl rfl rfl rfl rfl fun hpending => ⟨hpending, rfl⟩)
  | startSending => exact hnone ha.startSending
  | updateElectionId id => exact hnone (ha.updateElectionId id)
  | modify batch => exact ha.modify batch
  | look => exact hnone (ha.look hin)
  | deliver =>
    refine hnone ?_
    rw [Exchange.step, deliver]
    split
    · exact ha
    · split
      · exact ha.happen
      · exact ha
  | happen v =>
    refine hnone ?_
    rw [Exchange.step]
    split
    · exact ha
    · exact ha.happen

theorem Accounts.run (hin : InTransit e) (ha : Accounts c e k) (actions : List Action) :
    ∃ j ≤ k + Action.total actions, Accounts c (e.run actions) j := by
  induction actions generalizing e k with
  | nil => exact ⟨k, Nat.le_refl k, ha⟩
  | cons a actions ih =>
    obtain ⟨j, hj, hstep⟩ := ha.step hin a
    obtain ⟨i, hi, hend⟩ := ih (hin.step a) hstep
    refine ⟨i, Nat.le_trans hi ?_, hend⟩
    rw [Action.total, ← Nat.add_assoc]
    exact Nat.add_le_add_right hj _

/-! ### What has been collected -/

/-- The results of a client since it started as the given one. -/
def collected (e : Exchange) (c : Client) : List Received := e.client.results.drop c.results.length

theorem Accounts.collected_eq (ha : Accounts c e k) : e.collected c = e.received.flatMap Client.recorded := by
  rw [collected, ha.results, List.drop_left]

/-- What is kept of several responses, by kind. -/
theorem Accounts.filterMap_collected {α : Type} {f : Received → Option α} {g : ModifyResponse → List α}
    (ha : Accounts c e k) (hfg : ∀ m, (Client.recorded m).filterMap f = g m) :
    (e.collected c).filterMap f = e.received.flatMap g := by
  rw [ha.collected_eq, List.filterMap_flatMap]
  exact congrArg (e.received.flatMap ·) (funext hfg)

theorem Accounts.subjects_collected (ha : Accounts c e k) :
    (e.collected c).filterMap (·.subject?) = e.acknowledged.map Acknowledgment.subject := by
  rw [ha.filterMap_collected Client.subjects_recorded, acknowledged, List.map_flatMap]

theorem Accounts.params_collected (ha : Accounts c e k) :
    (e.collected c).filterMap (·.params) = e.received.filterMap (·.paramsResult) := by
  rw [ha.filterMap_collected Client.params_recorded, List.filterMap_eq_flatMap_toList]

theorem Accounts.elections_collected (ha : Accounts c e k) :
    (e.collected c).filterMap (·.electionId) = e.received.filterMap (·.electionId) := by
  rw [ha.filterMap_collected Client.elections_recorded, List.filterMap_eq_flatMap_toList]

end Exchange

end RouteProgramming
