import RouteProgramming.Proofs.Responder.Election

/-! Who may program where an election is held. An operation without a stamp is
let through only for the client that has presented the primary id last. One with
a stamp is let through for its stamp alone, which must not be below the primary
id; it is then treated as if the elected client had sent it, whoever did. So the
elected client programs alone as long as nobody stamps an operation with more
than it has presented. -/

namespace RouteProgramming

namespace Service

theorem mem_of_lastOf {ps : List (ClientId × ElectionId)} {client : ClientId} {id : ElectionId}
    (h : lastOf ps client = some id) : (client, id) ∈ ps := by
  obtain ⟨p, hp, rfl⟩ := Option.map_eq_some_iff.1 h
  obtain ⟨hmem, hclient⟩ := List.mem_filter.1 (List.mem_of_getLast? hp)
  exact of_decide_eq_true hclient ▸ hmem

end Service

namespace Chronicle

variable {h : Chronicle} {client : ClientId} {params : Parameters} {o : Operation}

/-- The client has presented the primary id, and nothing since. -/
def Elected (h : Chronicle) (client : ClientId) : Prop :=
  ∃ p, h.responder.primary = some p ∧ h.lastPresented client = some p

/-- What the election asks for an operation. -/
def Entitled (h : Chronicle) (client : ClientId) (o : Operation) : Prop :=
  match o.electionId with
  | none => h.Elected client
  | some stamp => ∀ p, h.responder.primary = some p → p ≤ stamp

theorem lastPresented_le {id : ElectionId} (presented : h.lastPresented client = some id) :
    ∃ p, h.responder.primary = some p ∧ id ≤ p := by
  have hmem : id ∈ h.presentations.map (·.2) := List.mem_map_of_mem (Service.mem_of_lastOf presented)
  cases hp : h.responder.primary with
  | none => rw [h.remembers.highest.none_iff.1 hp] at hmem; contradiction
  | some p => exact ⟨p, rfl, h.remembers.highest.le p hp id hmem⟩

theorem elected_iff : h.Elected client ↔
    ∃ id, h.lastPresented client = some id ∧ ∀ p, h.responder.primary = some p → ¬ id < p := by
  constructor
  · rintro ⟨p, hprimary, hlast⟩
    exact ⟨p, hlast, fun q hq => Option.some.inj (hprimary.symm.trans hq) ▸ Nat.lt_irrefl p.value⟩
  · rintro ⟨id, hlast, hhigh⟩
    obtain ⟨p, hprimary, hle⟩ := lastPresented_le hlast
    have hid : id = p := ElectionId.le_antisymm hle (ElectionId.not_lt.1 (hhigh p hprimary))
    exact ⟨p, hprimary, hid ▸ hlast⟩

/-- The check of the election comes down to this. -/
theorem checkElection_ok_iff_entitled (settled : h.responder.parameters? client = some params)
    (single : params.redundancy = .singleElectedPrimary) :
    (h.responder.context client).checkElection o = .ok () ↔ h.Entitled client o := by
  rw [h.context_eq settled, Rib.checkElection_ok_iff single, Context.effectiveId, Entitled]
  cases hstamp : o.electionId with
  | none => exact elected_iff.symm
  | some stamp => simp [ElectionId.not_lt]

theorem entitled_of_installed (settled : h.responder.parameters? client = some params)
    (single : params.redundancy = .singleElectedPrimary) {os rest : List Operation} {a : Acknowledgment}
    (ack : (h.responder.program client (os ++ o :: rest)).1[os.length]? = some a)
    (installed : a.outcome.isInstalled) : h.Entitled client o := by
  rw [← checkElection_ok_iff_entitled settled single]
  cases hcheck : (h.responder.context client).checkElection o with
  | ok => rfl
  | error f =>
    obtain ⟨⟨b, hb, -, hfailed⟩, -⟩ := Rib.applyBatch_barred (r := h.responder.rib) hcheck os rest
    obtain rfl := Option.some.inj (ack.symm.trans hb)
    rw [hfailed] at installed
    contradiction

/-- What the elected client would have its operations checked against. -/
def electedContext (h : Chronicle) (client : ClientId) (p : ElectionId) : Context :=
  { h.responder.context client with clientElectionId := some p, primaryElectionId := some p }

theorem perform_of_entitled (settled : h.responder.parameters? client = some params)
    (single : params.redundancy = .singleElectedPrimary) (entitled : h.Entitled client o) (r : Rib)
    (p : ElectionId) : r.perform (h.responder.context client) o =
      r.perform (h.electedContext client p) { o with electionId := none } := by
  have hcheck := (checkElection_ok_iff_entitled settled single).2 entitled
  have helected : (h.electedContext client p).checkElection { o with electionId := none } = .ok () := by
    rw [electedContext, h.context_eq settled]
    refine (Rib.checkElection_ok_iff single).2 ⟨p, rfl, fun q hq => ?_⟩
    exact Option.some.inj hq ▸ Nat.lt_irrefl p.value
  rw [Rib.perform, Rib.perform, hcheck, helected]
  rfl

/-- An operation is installed only if its client is elected or its stamp is no lower than the primary id, and it
is carried out like one of the elected client then; where no stamp is higher than what its client presented
last, only the elected client has anything installed. -/
theorem installed_only_if_entitled (settled : h.responder.parameters? client = some params)
    (single : params.redundancy = .singleElectedPrimary) :
    (∀ os o rest a, (h.responder.program client (os ++ o :: rest)).1[os.length]? = some a →
      a.outcome.isInstalled → h.Entitled client o) ∧
    (∀ o, h.Entitled client o → ∀ (r : Rib) p, r.perform (h.responder.context client) o =
      r.perform (h.electedContext client p) { o with electionId := none }) ∧
    (∀ os o rest a, (h.responder.program client (os ++ o :: rest)).1[os.length]? = some a →
      a.outcome.isInstalled →
      (∀ stamp, o.electionId = some stamp → ∃ id, h.lastPresented client = some id ∧ stamp ≤ id) →
      h.Elected client) := by
  refine ⟨fun os o rest a => entitled_of_installed settled single,
    fun o => perform_of_entitled settled single, fun os o rest a ack installed modest => ?_⟩
  have entitled := entitled_of_installed settled single ack installed
  rw [Entitled] at entitled
  cases hstamp : o.electionId with
  | none => rwa [hstamp] at entitled
  | some stamp =>
    rw [hstamp] at entitled
    obtain ⟨id, hlast, hle⟩ := modest stamp hstamp
    exact elected_iff.2 ⟨id, hlast, fun p hp => ElectionId.not_lt.2 (Nat.le_trans (entitled p hp) hle)⟩

/-- The first client of the contest is elected, and its operation is installed. -/
theorem installed_only_if_entitled_contest :
    (contest []).responder.parameters? 1 = some elective ∧ elective.redundancy = .singleElectedPrimary ∧
    (∃ a, ((contest []).responder.program 1 [writeNextHop none]).1[0]? = some a ∧ a.outcome.isInstalled) ∧
    (writeNextHop none).electionId = none ∧ (contest []).Entitled 1 (writeNextHop none) ∧
    (contest []).Elected 1 := by
  have hparams : (contest []).responder.parameters? 1 = some elective := by decide +kernel
  obtain ⟨a, hack, hinstalled⟩ : ∃ a, ((contest []).responder.program 1 [writeNextHop none]).1[0]? = some a ∧
      a.outcome.isInstalled := ⟨⟨1, .add, .nextHop 42, .installedInRib, 0, none⟩, by decide +kernel, rfl⟩
  have hall := installed_only_if_entitled hparams rfl
  exact ⟨hparams, rfl, ⟨a, hack, hinstalled⟩, rfl, hall.1 [] _ [] a hack hinstalled,
    hall.2.2 [] _ [] a hack hinstalled nofun⟩

/-- The second client of the contest has never presented an id, and programs by a stamp above the primary id. -/
theorem stamp_programs :
    (contest []).responder.parameters? 2 = some elective ∧ elective.redundancy = .singleElectedPrimary ∧
    ¬ (contest []).Elected 2 ∧
    ((contest []).responder.program 2 [writeNextHop (some ⟨0, 9⟩)]).1.map (·.outcome) = [.installedInRib] ∧
    (contest (.request 2 { operations := [writeNextHop (some ⟨0, 9⟩)] } ::
      Service.turns 2 2)).responder.rib.installed? "DEFAULT" (.nextHop 42) = some (writeNextHop none).entry := by
  have hparams : (contest []).responder.parameters? 2 = some elective := by decide +kernel
  have hnone : (contest []).lastPresented 2 = none := by decide +kernel
  have hstranger : ¬ (contest []).Elected 2 := fun ⟨p, _, hp⟩ => Option.some_ne_none p (hp.symm.trans hnone)
  exact ⟨hparams, rfl, hstranger, by decide +kernel, by decide +kernel⟩

end Chronicle

end RouteProgramming
