import RouteProgramming.Proofs.Election.Order
import RouteProgramming.Proofs.Responder.Stages
import RouteProgramming.Proofs.Rib.Hardware

/-! Elections over whole runs. The primary id is the highest of all ids that were
ever presented and accepted, whether or not their sessions are still open, so it
never gets lower, and every session that presents an id is told the highest one.
An operation goes by the id stamped on it, or else by the id that its client
presented last. Below the primary id it is not carried out. From there on it is:
one without a stamp only if its client holds the primary id, and one with a stamp
whoever sends it. -/

namespace RouteProgramming

/-- The highest of the ids, if there are any. -/
structure IsHighest (ids : List ElectionId) (highest : Option ElectionId) : Prop where
  none_iff : highest = none ↔ ids = []
  mem : ∀ id ∈ highest, id ∈ ids
  le : ∀ id ∈ highest, ∀ e ∈ ids, e.value ≤ id.value

theorem IsHighest.concat {ids : List ElectionId} {highest : Option ElectionId} (h : IsHighest ids highest)
    (id : ElectionId) : IsHighest (ids ++ [id]) (some (highest.elim id (max id))) := by
  cases highest with
  | none =>
    rw [h.none_iff.1 rfl]
    exact ⟨by simp, by simp, by simp⟩
  | some old =>
    have hmem := h.mem old rfl
    have hle := h.le old rfl
    refine ⟨iff_of_false nofun (List.append_ne_nil_of_right_ne_nil _ (List.cons_ne_nil _ _)), fun m hm => ?_,
      fun m hm e he => ?_⟩
    · obtain rfl := Option.some.inj hm
      rw [Option.elim_some]
      rcases ElectionId.max_eq id old with hmax | hmax
      · rw [hmax]
        exact List.mem_append_right _ (List.mem_singleton_self id)
      · rw [hmax]
        exact List.mem_append_left _ hmem
    · obtain rfl := Option.some.inj hm
      rw [Option.elim_some, ElectionId.value_max]
      rcases List.mem_append.1 he with he | he
      · exact Nat.le_trans (hle e he) (Nat.le_max_right ..)
      · rw [List.mem_singleton.1 he]
        exact Nat.le_max_left ..

namespace Service

variable {s : Service} {ps : List (ClientId × ElectionId)}

/-! ### What was presented -/

/-- All ids that are presented and accepted in the course of the events, with their clients. -/
def presentations (s : Service) : List Event → List (ClientId × ElectionId)
  | [] => []
  | v :: vs => (s.presented? v).toList ++ (s.step v).2.presentations vs

theorem presentations_append (s : Service) (es fs : List Event) :
    s.presentations (es ++ fs) = s.presentations es ++ (s.run es).presentations fs := by
  induction es generalizing s with
  | nil => rfl
  | cons v es ih => rw [List.cons_append, presentations, ih, presentations, List.append_assoc]; rfl

/-- The last id of a client. -/
def lastOf (ps : List (ClientId × ElectionId)) (client : ClientId) : Option ElectionId :=
  ((ps.filter (fun p => p.1 = client)).getLast?).map (·.2)

theorem lastOf_append (ps : List (ClientId × ElectionId)) (id? : Option (ClientId × ElectionId))
    (client : ClientId) : lastOf (ps ++ id?.toList) client = latest id? client (lastOf ps client) := by
  cases id? with
  | none => simp [latest]
  | some p =>
    by_cases hp : p.1 = client <;> simp [lastOf, latest, hp]

/-- The responder remembers of what was presented the highest id, and the last one of every open session. -/
structure Remembers (r : Responder) (ps : List (ClientId × ElectionId)) : Prop where
  highest : IsHighest (ps.map (·.2)) r.primary
  last : ∀ client session, r.sessions.get? client = some session → session.electionId = lastOf ps client
  past : ∀ p ∈ ps, p.1 < r.nextClient

theorem Stepped.presenter_lt {v : Event} {client : ClientId} {id : ElectionId} {r : Responder} (hs : s.Orderly)
    (h : Stepped s v (some (client, id)) r) : client < s.responder.nextClient := by
  cases h with
  | presented valid single =>
    obtain ⟨params, hparams, -⟩ := Option.map_eq_some_iff.1 single
    obtain ⟨session, hsession, -⟩ := Option.bind_eq_some_iff.1 hparams
    exact hs.numbered client session hsession

theorem Remembers.step (hs : s.Orderly) (h : Remembers s.responder ps) (v : Event) :
    Remembers (s.step v).2.responder (ps ++ (s.presented? v).toList) := by
  have hstep := step_cases hs v
  generalize s.presented? v = id? at hstep
  refine ⟨?_, fun client session hsession => ?_, fun p hp => ?_⟩
  · rw [hstep.primary]
    cases id? with
    | none => simpa using h.highest
    | some p => simpa using h.highest.concat p.2
  · rw [lastOf_append]
    rcases hstep.session hsession with ⟨rfl, rfl, rfl, -⟩ | ⟨old, hold, hlatest⟩
    · -- nobody has had the number of a new session before
      have hnone : ps.filter (fun p => p.1 = s.responder.nextClient) = [] :=
        List.filter_eq_nil_iff.2 fun p hp => by simpa using Nat.ne_of_lt (h.past p hp)
      rw [latest, lastOf, hnone]
      rfl
    · rw [hlatest, h.last client old hold]
  · refine Nat.lt_of_lt_of_le ?_ hstep.nextClient_le
    rcases List.mem_append.1 hp with hp | hp
    · exact h.past p hp
    · obtain rfl := Option.mem_toList.1 hp
      exact hstep.presenter_lt hs

theorem Remembers.run (hs : s.Orderly) (h : Remembers s.responder ps) (es : List Event) :
    Remembers (s.run es).responder (ps ++ s.presentations es) := by
  induction es generalizing s ps with
  | nil => rwa [presentations, List.append_nil]
  | cons v es ih =>
    rw [presentations, ← List.append_assoc]
    exact ih (hs.step v) (h.step hs v)

/-! ### What is announced -/

/-- Responses that give an election id give the primary one. -/
def Announces (responses : List ModifyResponse) (r : Responder) : Prop :=
  ∀ m ∈ responses, ∀ e, m.electionId = some e → r.primary = some e

theorem announces_nil (r : Responder) : Announces [] r := nofun

theorem Announces.append {ms ns : List ModifyResponse} {r : Responder} (hms : Announces ms r)
    (hns : Announces ns r) : Announces (ms ++ ns) r :=
  fun m hm => (List.mem_append.1 hm).elim (hms m) (hns m)

theorem announces_singleton {m : ModifyResponse} {r : Responder}
    (h : ∀ e, m.electionId = some e → r.primary = some e) : Announces [m] r :=
  fun _ hm => List.mem_singleton.1 hm ▸ h

theorem announces_respond {r : Responder} {m : ModifyResponse} (client : ClientId)
    (h : ∀ e, m.electionId = some e → r.primary = some e) :
    Announces (r.respond client m).responses (r.respond client m).state := by
  rw [Responder.respond]
  split
  · exact announces_singleton h
  · exact announces_nil r

theorem announces_settle (r : Responder) (client : ClientId) (params : Option Parameters) :
    Announces (r.settle client params).responses (r.settle client params).state := by
  unfold Responder.settle
  dsimp only
  split
  case h_1 | h_4 => exact announces_nil _
  case h_2 =>
    split
    case h_1 => exact announces_respond client (by simp)
    case h_2 e _ =>
      rw [Responder.respond]
      split
      · exact announces_singleton (by simp)
      · exact announces_nil _
  case h_3 => split <;> exact announces_nil _

theorem announces_elect (r : Responder) (client : ClientId) (id? : Option ElectionId) :
    Announces (r.elect client id?).responses (r.elect client id?).state := by
  cases id? with
  | none => exact announces_nil _
  | some id =>
    rw [Responder.elect]
    split
    case h_1 primary t accepted =>
      obtain ⟨-, -, -, rfl⟩ := Responder.present_ok accepted
      exact announces_respond client fun e he => he
    case h_2 => exact announces_nil _

theorem announces_runBatch (r : Responder) (client : ClientId) (operations : List Operation) :
    Announces (r.runBatch client operations).responses (r.runBatch client operations).state := by
  cases operations with
  | nil => exact announces_nil _
  | cons => exact announces_respond client (by simp)

theorem announces_conclude {p : Responder.Progress} (h : Announces p.responses p.state) (s : Service)
    (client : ClientId) (next : Duty) :
    Announces (s.conclude client p next).1 (s.conclude client p next).2.responder := by
  rw [conclude]
  split
  case h_1 => exact h
  case h_2 =>
    refine h.append ?_
    split
    · exact announces_singleton (by simp)
    · exact announces_nil _

theorem announces_step (s : Service) (v : Event) : Announces (s.step v).1 (s.step v).2.responder := by
  cases v with
  | connect | hangUp | deafen | plane => exact announces_nil _
  | request client request =>
    rw [step]
    split
    · exact announces_conclude (announces_settle _ _ _) _ _ _
    · exact announces_nil _
  | proceed client =>
    rw [step]
    split
    · exact announces_nil _
    · exact announces_conclude (announces_elect _ _ _) _ _ _
    · exact announces_conclude (announces_runBatch _ _ _) _ _ _
    · exact announces_nil _
  | flush request =>
    rw [step]
    split <;> exact announces_nil _

end Service

/-! ### What the election lets through -/

namespace Rib

variable {r : Rib} {c : Context} {o : Operation} {f : Failure}

theorem checkElection_ok_iff (single : c.redundancy = .singleElectedPrimary) : c.checkElection o = .ok () ↔
    ∃ id, c.effectiveId o = some id ∧ ∀ primary, c.primaryElectionId = some primary → ¬ id < primary := by
  rw [Context.checkElection, single]
  dsimp only
  split
  case h_1 hnone => simp [hnone]
  case h_2 id hid hnone => simp [hid, hnone]
  case h_3 id primary hid hprimary =>
    rw [hid, hprimary]
    split
    case isTrue hlt =>
      refine iff_of_false (by simp) ?_
      rintro ⟨_, h, hle⟩
      exact hle primary rfl (Option.some.inj h ▸ hlt)
    case isFalse hle => exact iff_of_true rfl ⟨id, rfl, fun _ h => Option.some.inj h ▸ hle⟩

theorem context_applyBatch (r : Rib) (c : Context) (os : List Operation) :
    ∃ n, (r.applyBatch c os).2.1 = { c with lastOperationId := n } := by
  induction os generalizing r c with
  | nil => exact ⟨_, rfl⟩
  | cons o os ih =>
    rw [applyBatch]
    obtain ⟨m, hm⟩ := r.context_apply c o
    obtain ⟨n, hn⟩ := ih ((r.apply c o).2.2.count (r.apply c o).1) (r.apply c o).2.1
    exact ⟨n, by rw [hn, hm]⟩

theorem apply_of_barred (h : c.checkElection o = .error f) :
    (r.apply c o).2.2 = r ∧ ∃ g, (r.apply c o).1 = .error g := by
  by_cases hid : o.id = 0 ∨ o.id ≤ c.lastOperationId
  · rw [apply_of_stale hid]
    exact ⟨rfl, _, rfl⟩
  · have hperform : r.perform (used c o) o = (.error f, r) := by
      rw [perform, show (used c o).checkElection o = .error f from h]
    rw [apply_of_fresh hid, hperform]
    exact ⟨rfl, _, rfl⟩

/-- What the election bars fails at any place of a batch, and changes nothing. -/
theorem applyBatch_barred (h : c.checkElection o = .error f) (os rest : List Operation) :
    (∃ a, (r.applyBatch c (os ++ o :: rest)).1[os.length]? = some a ∧ a.id = o.id ∧ a.outcome = .failed) ∧
      (r.applyBatch c (os ++ [o])).2.2.instances = (r.applyBatch c os).2.2.instances ∧
      (r.applyBatch c (os ++ [o])).2.2.plane = (r.applyBatch c os).2.2.plane := by
  -- the operations before it have changed the context, but nothing that the election goes by
  obtain ⟨n, hn⟩ := context_applyBatch r c os
  have hbarred : (r.applyBatch c os).2.1.checkElection o = .error f := by rw [hn]; exact h
  obtain ⟨hsame, g, hg⟩ := apply_of_barred (r := (r.applyBatch c os).2.2) hbarred
  refine ⟨⟨_, r.getElem?_applyBatch c os o rest, ?_⟩, ?_⟩
  · rw [hg]
    exact ⟨rfl, rfl⟩
  · have hinstances := congrArg Rib.instances hsame
    have hplane := congrArg Rib.plane hsame
    rw [applyBatch_append]
    exact ⟨hinstances, hplane⟩

end Rib

namespace Chronicle

/-- Every id that a client ever presented and the responder accepted. -/
def presentations (h : Chronicle) : List (ClientId × ElectionId) := h.start.presentations h.events

def lastPresented (h : Chronicle) (client : ClientId) : Option ElectionId :=
  Service.lastOf h.presentations client

theorem remembers (h : Chronicle) : Service.Remembers h.responder h.presentations := by
  have hstart : Service.Remembers h.start.responder [] := ⟨⟨iff_of_true rfl rfl, nofun, nofun⟩, nofun, nofun⟩
  exact hstart.run h.start_orderly h.events

/-- The election as the operations of a session are checked against it. -/
theorem context_eq (h : Chronicle) {client : ClientId} {params : Parameters}
    (settled : h.responder.parameters? client = some params) :
    h.responder.context client =
      { client, redundancy := params.redundancy, ackType := params.ackType,
        clientElectionId := h.lastPresented client, primaryElectionId := h.responder.primary,
        lastOperationId := (h.responder.context client).lastOperationId } := by
  obtain ⟨session, hsession, hparams⟩ := Option.bind_eq_some_iff.1 settled
  rw [lastPresented, ← h.remembers.last client session hsession, Responder.context, hsession]
  simp only [Option.getD_some, hparams]

/-- The primary id is the highest that was ever presented, it never gets lower, every session that presents an
id is told the highest one, and an operation without an effective id or with a lower one changes nothing. -/
theorem election_safe (h : Chronicle) :
    IsHighest (h.presentations.map (·.2)) h.responder.primary ∧
    (∀ es fs, h.events = es ++ fs → ∀ p, (h.before es).responder.primary = some p →
      ∃ q, h.responder.primary = some q ∧ p ≤ q) ∧
    (∀ es v fs, h.events = es ++ v :: fs → ∀ m ∈ ((h.before es).service.step v).1, ∀ e,
      m.electionId = some e → IsHighest ((h.before (es ++ [v])).presentations.map (·.2)) (some e)) ∧
    (∀ client params, h.responder.parameters? client = some params →
      params.redundancy = .singleElectedPrimary → ∀ os o rest,
      (∀ id, (o.electionId <|> h.lastPresented client) = some id →
        ∃ p, h.responder.primary = some p ∧ id < p) →
      (∃ a, (h.responder.program client (os ++ o :: rest)).1[os.length]? = some a ∧ a.id = o.id ∧
        a.outcome = .failed) ∧
      (h.responder.program client (os ++ [o])).2.rib.instances =
        (h.responder.program client os).2.rib.instances ∧
      (h.responder.program client (os ++ [o])).2.rib.plane = (h.responder.program client os).2.rib.plane) := by
  refine ⟨h.remembers.highest, ?_, ?_, ?_⟩
  · intro es fs hevents p hp
    have hpast : p ∈ h.presentations.map (·.2) := by
      rw [presentations, hevents, Service.presentations_append, List.map_append]
      exact List.mem_append_left _ ((h.before es).remembers.highest.mem p hp)
    cases hq : h.responder.primary with
    | none => rw [h.remembers.highest.none_iff.1 hq] at hpast; contradiction
    | some q => exact ⟨q, rfl, h.remembers.highest.le q hq p hpast⟩
  · intro es v fs _ m hm e he
    have hprimary := Service.announces_step _ v m hm e he
    rw [← service_concat] at hprimary
    exact hprimary ▸ (h.before (es ++ [v])).remembers.highest
  · intro client params settled single os o rest hlow
    have hcontext := h.context_eq settled
    have hbarred : (h.responder.context client).checkElection o ≠ .ok () := by
      rw [hcontext]
      intro hok
      obtain ⟨id, hid, hhigh⟩ := (Rib.checkElection_ok_iff single).1 hok
      obtain ⟨p, hp, hlt⟩ := hlow id hid
      exact hhigh p hp hlt
    cases hcheck : (h.responder.context client).checkElection o with
    | ok => exact absurd hcheck hbarred
    | error f => exact Rib.applyBatch_barred hcheck os rest

/-! ### An example -/

/-- The parameters of clients that hold an election. -/
def elective : Parameters := { redundancy := .singleElectedPrimary }

/-- Writes a next-hop. -/
def writeNextHop (electionId : Option ElectionId) : Operation where
  id := 1
  networkInstance := "DEFAULT"
  op := .add
  entry := .nextHop { index := 42, address := some (.v4 ⟨0xC0000206⟩) }
  electionId

/-- Of two clients in one election only the first presents an id, which is 0:5. -/
def contest (events : List Service.Event) : Chronicle where
  config := {}
  events :=
    .connect :: .connect ::
      (.request 1 { params := some elective, electionId := some ⟨0, 5⟩ } :: Service.turns 1 2) ++
      (.request 2 { params := some elective } :: Service.turns 2 2) ++ events

/-- The first client is told its own id, and an operation of the second one fails. -/
theorem election_safe_contest :
    (contest []).responder.primary = some ⟨0, 5⟩ ∧
    IsHighest [⟨0, 5⟩] (contest []).responder.primary ∧
    (((contest []).before ((contest []).events.take 3)).service.step (.proceed 1)).1 =
      [{ electionId := some ⟨0, 5⟩ }] ∧
    IsHighest (((contest []).before ((contest []).events.take 3 ++ [.proceed 1])).presentations.map (·.2))
      (some ⟨0, 5⟩) ∧
    (contest []).responder.parameters? 2 = some elective ∧ elective.redundancy = .singleElectedPrimary ∧
    (writeNextHop none).electionId = none ∧ (contest []).lastPresented 2 = none ∧
    ∃ a, ((contest []).responder.program 2 [writeNextHop none]).1[0]? = some a ∧ a.id = 1 ∧
      a.outcome = .failed := by
  have hids : (contest []).presentations.map (·.2) = [⟨0, 5⟩] := by decide +kernel
  have hsplit : (contest []).events = (contest []).events.take 3 ++ .proceed 1 :: (contest []).events.drop 4 := rfl
  have htold : (((contest []).before ((contest []).events.take 3)).service.step (.proceed 1)).1 =
      [{ electionId := some ⟨0, 5⟩ }] := by decide +kernel
  have hparams : (contest []).responder.parameters? 2 = some elective := by decide +kernel
  have hnone : (contest []).lastPresented 2 = none := by decide +kernel
  have hsafe := (contest []).election_safe
  exact ⟨by decide +kernel, hids ▸ hsafe.1, htold,
    hsafe.2.2.1 _ _ _ hsplit _ (htold ▸ List.mem_singleton_self _) _ rfl, hparams, rfl, rfl, hnone,
    (hsafe.2.2.2 2 elective hparams rfl [] (writeNextHop none) [] (by simp [writeNextHop, hnone])).1⟩

end Chronicle

end RouteProgramming
