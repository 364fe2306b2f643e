import RouteProgramming.Proofs.Client.Accounts
import RouteProgramming.Proofs.Responder.Election

/-! What a wait that ends well has seen. All operations that the client has sent
are acknowledged then, each one once and in the order in which they were sent;
and parameters that it has sent are answered. Of the answers to election ids a
client only notes that there is one to come: those that it has collected are
the first ones, and they are all of them if it never presents an id while the
answer to an earlier one is still to come. -/

namespace RouteProgramming

namespace Exchange

open Service Responder

variable {e f : Exchange} {c : Client} {k : Nat}

theorem pending_of_isEmpty {p : Pending} (h : p.isEmpty) :
    p.params = false ∧ p.election = false ∧ p.operations.size = 0 := by
  rw [Pending.isEmpty, Pending.count, beq_iff_eq, Nat.add_eq_zero_iff, Nat.add_eq_zero_iff] at h
  exact ⟨Bool.toNat_eq_zero.1 h.1.1, Bool.toNat_eq_zero.1 h.1.2, h.2⟩

/-- A wait ends well when nothing is owed. -/
theorem look_eq_ok_iff : e.look.1 = some (.ok ()) ↔ e.client.pending.isEmpty := by
  rw [look]
  split
  case isTrue h => exact iff_of_true rfl h
  case isFalse h =>
    refine iff_of_false ?_ h
    split
    · split <;> simp
    · split <;> simp

/-! ### Acknowledgments -/

/-- At any time a client has collected acknowledgments of the first operations that it has sent, and when a wait ends
well these are all of them: one for each operation, in order, with its number, type and key. -/
theorem acknowledged_exactly (h : Chronicle) (c : Client) {actions : List Action}
    (few : Action.total actions ≤ UInt64.size) :
    let e := (start h c).run actions
    (e.submitted.map (·.id)).Nodup ∧
    (e.collected c).filterMap (·.subject?) <+: e.submitted.map Operation.subject ∧
    (e.look.1 = some (.ok ()) → (e.collected c).filterMap (·.subject?) = e.submitted.map Operation.subject) := by
  intro e
  have hin : InTransit e := inTransit_run h c actions
  obtain ⟨k, hk, ha⟩ := (start_accounts h c).run (start_inTransit h c) actions
  have hroom : k ≤ UInt64.size := Nat.le_trans (Nat.zero_add (Action.total actions) ▸ hk) few
  have hfirst : (e.collected c).filterMap (·.subject?) <+: e.submitted.map Operation.subject := by
    rw [ha.subjects_collected]
    exact hin.subjects_first (List.prefix_append ..)
  refine ⟨ha.numbers.nodup (Client.nodup_numbers _ hroom), hfirst, fun hok => ?_⟩
  obtain ⟨owed, hsplit, hlists⟩ := ha.operations hroom
  have hnone : owed = [] := hlists.eq_nil (pending_of_isEmpty (look_eq_ok_iff.1 hok)).2.2
  refine hfirst.eq_of_length ?_
  rw [ha.subjects_collected, List.length_map, List.length_map]
  simpa [hnone] using (congrArg List.length hsplit).symm

/-! ### An example -/

/-- Another client has written next-hop 42. -/
def shared : Chronicle where
  config := {}
  events :=
    .connect :: .request 1 { params := some {}, operations := [Chronicle.writeNextHop none] } :: turns 1 3

/-- A client that takes part in no election. -/
def voiceless : Client where
  connection := { stub := some .device }

/-- A group of one next-hop. -/
def groupOf (id index : UInt64) : EntryDraft where
  fields := .nextHopGroup (some id) (Table.ofList [(index, 1)])

/-- A second batch is sent before the first one is answered, and a flush comes between the two. -/
def pipelined : List Action :=
  [.startSending, .modify [(.add, groupOf 10 42), (.add, groupOf 11 7)]] ++ serving 2 ++
    [.look, .modify [(.replace, groupOf 10 42)]] ++ serving 2 ++
    [.happen (.flush { target := .all, electionOverride := false })] ++ serving 2 ++ [.look, .look]

/-- Only the first operation succeeds, and all three are acknowledged. -/
theorem acknowledged_exactly_pipelined :
    let e := (start shared voiceless).run pipelined
    Action.total pipelined ≤ UInt64.size ∧ e.look.1 = some (.ok ()) ∧
    e.acknowledged.map (·.outcome) = [.installedInRib, .failed, .failed] ∧
    (e.collected voiceless).filterMap (·.subject?) =
      [(1, .add, .nextHopGroup 10), (2, .add, .nextHopGroup 11), (3, .replace, .nextHopGroup 10)] := by
  have hfew : Action.total pipelined ≤ UInt64.size := by decide +kernel
  have hok : ((start shared voiceless).run pipelined).look.1 = some (.ok ()) := by decide +kernel
  obtain ⟨-, -, hall⟩ := acknowledged_exactly shared voiceless hfew
  exact ⟨hfew, hok, by decide +kernel, (hall hok).trans (by decide +kernel)⟩

/-! ### Answers -/

/-- The action presents an election id. -/
def Action.presents (e : Exchange) : Action → Bool
  | .startSending => e.client.electionId.isSome
  | .updateElectionId _ => true
  | _ => false

/-- The client presents no election id while it waits for the answer to an earlier one. -/
def OneByOne (e : Exchange) : List Action → Prop
  | [] => True
  | a :: actions => (a.presents e → e.client.pending.election = false) ∧ OneByOne (e.step a) actions

instance decidableOneByOne : ∀ (e : Exchange) (actions : List Action), Decidable (OneByOne e actions)
  | _, [] => inferInstanceAs (Decidable True)
  | e, a :: actions =>
    have := decidableOneByOne (e.step a) actions
    inferInstanceAs (Decidable ((a.presents e → e.client.pending.election = false) ∧ OneByOne (e.step a) actions))

/-- At most one election id lacks its answer, and then an answer is noted as to come. -/
def KeepsUp (e : Exchange) : Prop :=
  e.presented.length ≤ (e.received.filterMap (·.electionId)).length + e.client.pending.election.toNat

theorem KeepsUp.congr (h : KeepsUp e) (presented : f.presented = e.presented) (received : f.received = e.received)
    (election : f.client.pending.election = false → e.client.pending.election = false) : KeepsUp f := by
  rw [KeepsUp, presented, received]
  refine Nat.le_trans h (Nat.add_le_add_left ?_ _)
  cases hafter : f.client.pending.election with
  | true => exact Bool.toNat_le _
  | false => exact Nat.le_of_eq (congrArg Bool.toNat (election hafter))

/-- One more election id may be sent when all others have been answered, and its answer is noted as to come. -/
theorem KeepsUp.of_free (h : KeepsUp e) (free : e.client.pending.election = false) {id : ElectionId}
    (presented : f.presented = e.presented ++ [id]) (received : f.received = e.received)
    (election : f.client.pending.election = true) : KeepsUp f := by
  rw [KeepsUp, free] at h
  rw [KeepsUp, presented, received, election, List.length_append]
  exact Nat.add_le_add_right h 1

theorem KeepsUp.startSending (h : KeepsUp e)
    (free : e.client.electionId.isSome → e.client.pending.election = false) : KeepsUp e.startSending.2 := by
  have hnoted : e.client.introduced.pending.election =
      (e.client.pending.election || e.client.electionId.isSome) := rfl
  have hbefore (hafter : e.client.introduced.pending.election = false) : e.client.pending.election = false :=
    (Bool.or_eq_false_iff.1 (hnoted ▸ hafter)).1
  rw [Exchange.startSending]
  rcases post_cases { e with client := e.client.introduced } e.client.introduction with same | same
  · rw [same]
    exact h.congr rfl rfl hbefore
  · rw [same]
    have hpresented := presented_posted { e with client := e.client.introduced } e.client.introduction
    rw [Client.introduction] at hpresented ⊢
    cases hid : e.client.electionId with
    | none =>
      rw [hid] at hpresented
      exact h.congr (hpresented.trans (List.append_nil _)) rfl hbefore
    | some id =>
      rw [hid] at hpresented hnoted
      exact h.of_free (free (hid ▸ rfl)) hpresented rfl (hnoted.trans (Bool.or_true _))

theorem KeepsUp.updateElectionId (h : KeepsUp e) (free : e.client.pending.election = false) (id : ElectionId) :
    KeepsUp (e.updateElectionId id).2 := by
  rw [Exchange.updateElectionId]
  rcases post_cases { e with client := e.client.presenting id } { electionId := some id } with same | same
  · rw [same]
    exact h.congr rfl rfl (Bool.noConfusion ·)
  · rw [same]
    exact h.of_free free (presented_posted ..) rfl rfl

theorem KeepsUp.modify (h : KeepsUp e) (batch : List (OperationType × EntryDraft)) : KeepsUp (e.modify batch).2 := by
  rcases e.modify_cases batch with same | ⟨built, -, same | same⟩
  · rwa [same]
  · rw [same]
    exact h.congr rfl rfl id
  · rw [same]
    exact h.congr ((presented_posted ..).trans (List.append_nil _)) rfl id

theorem KeepsUp.look (hin : InTransit e) (h : KeepsUp e) : KeepsUp e.look.2 := by
  rcases e.look_cases hin.on with same | ⟨m, inbox, hinbox, same⟩
  · rwa [same]
  have hplain : m.Plain := hin.plain m (hinbox ▸ List.mem_append_right _ List.mem_cons_self)
  rw [same, Client.accept_plain hplain]
  change e.presented.length ≤
    ((e.received ++ [m]).filterMap (·.electionId)).length + (e.client.pending.election && m.electionId.isNone).toNat
  rw [KeepsUp] at h
  cases hid : m.electionId with
  | none => simpa [hid] using h
  | some id =>
    have hreceived : ((e.received ++ [m]).filterMap (·.electionId)).length =
        (e.received.filterMap (·.electionId)).length + 1 := by simp [hid]
    rw [hreceived]
    refine Nat.le_trans h (Nat.le_trans ?_ (Nat.le_add_right _ _))
    exact Nat.add_le_add_left (Bool.toNat_le _) _

theorem KeepsUp.step (hin : InTransit e) (h : KeepsUp e) {a : Action}
    (free : a.presents e → e.client.pending.election = false) : KeepsUp (e.step a) := by
  cases a with
  | configure | cut => exact h.congr rfl rfl id
  | startSending => exact h.startSending free
  | updateElectionId id => exact h.updateElectionId (free rfl) id
  | modify batch => exact h.modify batch
  | look => exact h.look hin
  | deliver =>
    rw [Exchange.step, deliver]
    split
    · exact h
    · split
      · exact h.congr rfl rfl id
      · exact h
  | happen v =>
    rw [Exchange.step]
    split
    · exact h
    · exact h.congr rfl rfl id

theorem KeepsUp.run (hin : InTransit e) (h : KeepsUp e) {actions : List Action} (one : OneByOne e actions) :
    KeepsUp (e.run actions) := by
  induction actions generalizing e with
  | nil => exact h
  | cons a actions ih => exact ih (hin.step a) (h.step hin one.1) one.2

/-- What was told of a presentation is what the responder said to it. -/
theorem exists_of_mem_grants {grant : ElectionId × ElectionId} (h : grant ∈ grants e.session e.rounds) :
    ∃ t ∈ e.rounds, t.request.electionId = some grant.1 ∧
      ∃ r s, t.electing = some r ∧ r.present e.session grant.1 = .ok (grant.2, s) := by
  obtain ⟨t, ht, hgrant⟩ := List.mem_filterMap.1 h
  exact ⟨t, List.mem_reverse.1 ht, Round.grant?_eq_some hgrant⟩

/-- When a wait ends well a client that has sent its parameters has collected one answer to them. The primary ids that
it has collected are the first answers that there are, and no more than the ids that it has presented. -/
theorem answers_first (h : Chronicle) (c : Client) (actions : List Action) :
    let e := (start h c).run actions
    e.look.1 = some (.ok ()) →
      (e.sent.filterMap (·.params) ≠ [] → ∃ result, (e.collected c).filterMap (·.params) = [result]) ∧
      (e.collected c).filterMap (·.electionId) <+: (grants e.session e.rounds).map (·.2) ∧
      ((grants e.session e.rounds).map (·.1)).Sublist e.presented := by
  intro e hok
  have hin : InTransit e := inTransit_run h c actions
  obtain ⟨k, -, ha⟩ := (start_accounts h c).run (start_inTransit h c) actions
  obtain ⟨hparams, -, -⟩ := pending_of_isEmpty (look_eq_ok_iff.1 hok)
  refine ⟨fun hsent => List.length_eq_one_iff.1 ?_, ?_, hin.grants_presented⟩
  · rw [ha.params_collected]
    refine Nat.le_antisymm ?_ (List.length_pos_iff.2 (ha.params hsent hparams))
    refine Nat.le_trans (List.Sublist.length_le ?_) hin.params
    exact (List.sublist_append_left ..).filterMap _
  · rw [ha.elections_collected, ← hin.elections, List.filterMap_append]
    exact List.prefix_append ..

/-- A client that presents its election ids one by one has been answered when a wait ends well: once about its
parameters if it has sent them, and once about each id, in order, so that the last primary id that it has collected is
what the responder said to the latest id. -/
theorem answers_complete (h : Chronicle) (c : Client) {actions : List Action} (one : OneByOne (start h c) actions)
    (ok : ((start h c).run actions).look.1 = some (.ok ())) :
    let e := (start h c).run actions
    (e.sent.filterMap (·.params) ≠ [] → ∃ result, (e.collected c).filterMap (·.params) = [result]) ∧
    (grants e.session e.rounds).map (·.1) = e.presented ∧
    (e.collected c).filterMap (·.electionId) = (grants e.session e.rounds).map (·.2) ∧
    ∀ id, e.presented.getLast? = some id → ∃ t ∈ e.rounds, t.request.electionId = some id ∧
      ∃ r s primary, t.electing = some r ∧ r.present e.session id = .ok (primary, s) ∧
        ((e.collected c).filterMap (·.electionId)).getLast? = some primary := by
  intro e
  have hkeeps : KeepsUp e := KeepsUp.run (start_inTransit h c) (Nat.le_refl 0) one
  obtain ⟨k, -, ha⟩ := (start_accounts h c).run (start_inTransit h c) actions
  obtain ⟨hparams, hfirst, hpresented⟩ := answers_first h c actions ok
  obtain ⟨-, hnone, -⟩ := pending_of_isEmpty (look_eq_ok_iff.1 ok)
  rw [KeepsUp, hnone, Bool.toNat_false, Nat.add_zero, ← ha.elections_collected] at hkeeps
  -- as many answers have been collected as ids presented, so that nothing is missing in between
  have hmiddle := hfirst.length_le
  have hgranted := hpresented.length_le
  rw [List.length_map] at hmiddle hgranted
  have hall : (grants e.session e.rounds).map (·.1) = e.presented := by
    refine hpresented.eq_of_length ?_
    rw [List.length_map]
    exact Nat.le_antisymm hgranted (Nat.le_trans hkeeps hmiddle)
  have hcollected : (e.collected c).filterMap (·.electionId) = (grants e.session e.rounds).map (·.2) := by
    refine hfirst.eq_of_length ?_
    rw [List.length_map]
    exact Nat.le_antisymm hmiddle (Nat.le_trans hgranted hkeeps)
  refine ⟨hparams, hall, hcollected, fun id hid => ?_⟩
  rw [← hall, List.getLast?_map, Option.map_eq_some_iff] at hid
  obtain ⟨grant, hlast, rfl⟩ := hid
  obtain ⟨t, ht, hrequest, r, s, helecting, hpresent⟩ := exists_of_mem_grants (List.mem_of_getLast? hlast)
  refine ⟨t, ht, hrequest, r, s, grant.2, helecting, hpresent, ?_⟩
  rw [hcollected, List.getLast?_map, hlast, Option.map_some]

/-! ### Two examples -/

/-- A client that enters an election with 0:5. -/
def candidate : Client where
  connection := { stub := some .device, params := Chronicle.elective, initialElectionId := some ⟨0, 5⟩ }

/-- Another client holds the election with 0:6. -/
def held : Chronicle where
  config := {}
  events := .connect :: .request 1 { params := some Chronicle.elective, electionId := some ⟨0, 6⟩ } :: turns 1 2

/-- The client goes up to 0:7 after it has been told about its first id. -/
def patient : List Action :=
  .startSending :: serving 2 ++ [.look, .look, .updateElectionId ⟨0, 7⟩] ++ serving 2 ++ [.look]

/-- The client goes up to 0:7 at once. -/
def hasty : List Action := [.startSending, .updateElectionId ⟨0, 7⟩] ++ serving 1 ++ serving 1 ++ [.look, .look]

theorem answers_complete_patient :
    let e := (start held candidate).run patient
    OneByOne (start held candidate) patient ∧ e.look.1 = some (.ok ()) ∧
    (∃ result, (e.collected candidate).filterMap (·.params) = [result]) ∧
    (e.collected candidate).filterMap (·.electionId) = [⟨0, 6⟩, ⟨0, 7⟩] := by
  have hone : OneByOne (start held candidate) patient := by decide +kernel
  have hok : ((start held candidate).run patient).look.1 = some (.ok ()) := by decide +kernel
  obtain ⟨hparams, -, hcollected, -⟩ := answers_complete held candidate hone hok
  exact ⟨hone, hok, hparams (by decide +kernel), hcollected.trans (by decide +kernel)⟩

/-- The wait ends well before the client has seen the answer to its latest id, which it could look at. -/
theorem wait_leaves_answer :
    let e := (start ⟨{}, []⟩ candidate).run hasty
    e.look.1 = some (.ok ()) ∧ e.presented = [⟨0, 5⟩, ⟨0, 7⟩] ∧
    (e.collected candidate).filterMap (·.electionId) = [⟨0, 5⟩] ∧
    e.client.inbox = [{ electionId := some ⟨0, 7⟩ }] := by
  decide +kernel

end Exchange

end RouteProgramming
