import RouteProgramming.Proofs.Responder.Stages
import RouteProgramming.Proofs.Table.Rows

/-! A device that serves one session at a time. What the session is told and
what becomes of the device can be said in full: for the request that opens it,
for a batch, and for its end. -/

namespace RouteProgramming.Responder

variable {r : Responder} {client : ClientId} {session : Session}

theorem connect_alone (alone : r.sessions = ∅) : r.connect =
    (r.nextClient, { r with sessions := .ofList [(r.nextClient, {})], nextClient := r.nextClient + 1 }) := by
  rw [connect, alone]
  rfl

theorem updateSession_alone (alone : r.sessions = .ofList [(client, session)]) (f : Session → Session) :
    r.updateSession client f = { r with sessions := .ofList [(client, f session)] } := by
  rw [updateSession, alone, Table.modify_singleton]

theorem get?_alone (alone : r.sessions = .ofList [(client, session)]) : r.sessions.get? client = some session := by
  rw [alone, Table.get?_singleton_self]

theorem isOpen_alone (alone : r.sessions = .ofList [(client, session)]) : r.isOpen client :=
  Table.contains_iff.2 ⟨session, get?_alone alone⟩

theorem respond_alone (alone : r.sessions = .ofList [(client, session)]) (listening : session.listening)
    (response : ModifyResponse) : r.respond client response = { state := r, responses := [response] } := by
  rw [respond, hears, get?_alone alone]
  exact if_pos listening

theorem andThen_going (ms : List ModifyResponse) (stage : Responder → Progress) :
    ({ state := r, responses := ms } : Progress).andThen stage =
      { stage r with responses := ms ++ (stage r).responses } := rfl

/-! ### The first request -/

theorem negotiate_alone (alone : r.sessions = .ofList [(client, {})]) {params : Parameters}
    (valid : params.check = .ok ()) (supported : params.ackType = .ribAndFib → r.config.fibAckSupported) :
    r.negotiate client params = .ok { r with sessions := .ofList [(client, { params := some params })] } := by
  have hack : ¬(params.ackType = .ribAndFib ∧ (!r.config.fibAckSupported) = true) := by
    rintro ⟨hack, hunsupported⟩
    simp [supported hack] at hunsupported
  have hagreed : r.disagreeing? client params = none := by
    rw [disagreeing?, settled, alone]
    rfl
  rw [negotiate, valid]
  dsimp only
  rw [if_neg hack, hagreed, updateSession_alone alone]

theorem present_alone {params : Parameters} (alone : r.sessions = .ofList [(client, { params := some params })])
    (single : params.redundancy = .singleElectedPrimary) {id : ElectionId} (valid : id.check = .ok ()) :
    r.present client id = .ok (r.primary.elim id (max id), { r with
      sessions := .ofList [(client, { params := some params, electionId := some id })]
      primary := some (r.primary.elim id (max id)) }) := by
  rw [present, valid]
  dsimp only
  rw [get?_alone alone, updateSession_alone alone]
  exact if_pos (congrArg some single)

/-- Parameters and an election id in one request are answered one after the other. -/
theorem handle_introduction (alone : r.sessions = .ofList [(client, {})]) {params : Parameters}
    (valid : params.check = .ok ()) (supported : params.ackType = .ribAndFib → r.config.fibAckSupported)
    (single : params.redundancy = .singleElectedPrimary) {id : ElectionId} (above : id.check = .ok ()) :
    r.handle client { params := some params, electionId := some id } =
      ([{ paramsResult := some .ok }, { electionId := some (r.primary.elim id (max id)) }], { r with
        sessions := .ofList [(client, { params := some params, electionId := some id })]
        primary := some (r.primary.elim id (max id)) }) := by
  let agreed : Responder := { r with sessions := .ofList [(client, { params := some params })] }
  let elected : Responder := { r with
    sessions := .ofList [(client, { params := some params, electionId := some id })]
    primary := some (r.primary.elim id (max id)) }
  have hsettle : r.settle client (some params) =
      { state := agreed, responses := [{ paramsResult := some .ok }] } := by
    simp only [settle, get?_alone alone, Option.bind_some, Option.isNone_none,
      negotiate_alone alone valid supported]
    exact respond_alone rfl rfl _
  have helect : agreed.elect client (some id) =
      { state := elected, responses := [{ electionId := some (r.primary.elim id (max id)) }] } := by
    have hpresent : agreed.present client id = .ok (r.primary.elim id (max id), elected) :=
      present_alone rfl single above
    simp only [elect, hpresent]
    exact respond_alone rfl rfl _
  have hserve : r.serve client { params := some params, electionId := some id } = { state := elected, responses :=
      [{ paramsResult := some .ok }, { electionId := some (r.primary.elim id (max id)) }] } := by
    rw [serve, hsettle, andThen_going, helect]
    rfl
  rw [handle, hserve]

/-! ### Batches -/

theorem context_alone {params : Parameters} (alone : r.sessions = .ofList [(client, session)])
    (settled : session.params = some params) : r.context client =
    { client, redundancy := params.redundancy, ackType := params.ackType, clientElectionId := session.electionId,
      primaryElectionId := r.primary, lastOperationId := session.lastOperationId } := by
  rw [context, get?_alone alone, Option.getD_some, settled, Option.getD_some]

theorem program_alone (alone : r.sessions = .ofList [(client, session)]) (operations : List Operation) :
    r.program client operations = ((r.rib.applyBatch (r.context client) operations).1, { r with
      rib := (r.rib.applyBatch (r.context client) operations).2.2
      sessions := .ofList [(client, { session with
        lastOperationId := (r.rib.applyBatch (r.context client) operations).2.1.lastOperationId })] }) := by
  let programmed : Responder := { r with rib := (r.rib.applyBatch (r.context client) operations).2.2 }
  have halone : programmed.sessions = .ofList [(client, session)] := alone
  exact congrArg (Prod.mk _) (updateSession_alone halone _)

/-- A batch is answered by one message. -/
theorem handle_batch (alone : r.sessions = .ofList [(client, session)]) (settled : session.params.isSome)
    (listening : session.listening) {operations : List Operation} (nonempty : operations ≠ []) :
    r.handle client { operations } =
      ([{ results := (r.program client operations).1 }], (r.program client operations).2) := by
  have hsettle : r.settle client none = { state := r } := by
    obtain ⟨params, hparams⟩ := Option.isSome_iff_exists.1 settled
    simp only [settle, get?_alone alone, Option.bind_some, hparams, Option.isNone_some]
  have hprogram : (r.program client operations).2.sessions = .ofList [(client, { session with
      lastOperationId := (r.rib.applyBatch (r.context client) operations).2.1.lastOperationId })] := by
    rw [program_alone alone]
  have hbatch : r.runBatch client operations =
      { state := (r.program client operations).2, responses := [{ results := (r.program client operations).1 }] } := by
    rw [runBatch]
    · exact respond_alone hprogram listening _
    · exact nonempty
  have hserve : r.serve client { operations } = { state := (r.program client operations).2, responses :=
      [{ results := (r.program client operations).1 }] } := by
    rw [serve, hsettle, andThen_going, elect, andThen_going, hbatch]
    rfl
  rw [handle, hserve]

/-! ### The end -/

/-- What is left of the tables when a session ends. -/
def remains (r : Responder) (client : ClientId) : Persistence → Rib
  | .preserve => r.rib
  | .delete => (r.rib.removeOwnedBy client).2

theorem disconnect_alone {params : Parameters} (alone : r.sessions = .ofList [(client, session)])
    (settled : session.params = some params) :
    r.disconnect client = { r with sessions := ∅, rib := r.remains client params.persistence } := by
  simp only [disconnect, alone, Table.get?_singleton_self, Option.bind_some, settled, Table.erase_singleton]
  cases params.persistence <;> rfl

end RouteProgramming.Responder
