import Mathlib.Data.List.Induction
import RouteProgramming.Proofs.Responder.Stages
import RouteProgramming.Proofs.Rib.Ownership

/-! What is installed once all sessions have ended, where every session has asked
for its entries to go with it. An entry that others still refer to at that time
is left in place, and no later end of a session takes it away: only a batch or a
flush does. So the tables hold exactly what was left in place; they are empty if
no client's session ended while another client's entry referred to its own. -/

namespace RouteProgramming

namespace Rib

variable {r : Rib} {ni : String} {k : EntryKey} {i : Installed Entry} {client : ClientId}

/-- An entry of someone else refers to one of the client. -/
def Shares (r : Rib) (client : ClientId) : Prop :=
  ∃ ni j other k own, r.row? ni j = some other ∧ other.owner ≠ client ∧ k ∈ other.entry.references ∧
    r.row? ni k = some own ∧ own.owner = client

/-- A chain of references into the entries of a client has a link at which it comes in. -/
theorem Retained.shares (h : r.Retained (some client) ni k) (hi : r.row? ni k = some i)
    (howner : i.owner = client) : r.Shares client := by
  induction h generalizing i with
  | @spared j k other row stranger refers =>
    refine ⟨ni, j, other, k, i, row, fun hown => stranger ?_, refers, hi, howner⟩
    exact fun c hc => hown.trans (Option.some.inj hc)
  | @chained j k other row _ refers ih =>
    by_cases hown : other.owner = client
    · exact ih row hown
    · exact ⟨ni, j, other, k, i, row, hown, refers, hi, howner⟩

theorem entries_eq_nil (h : ∀ k, r.row? ni k = none) : r.entries ni = [] := by
  rw [entries]
  split
  case h_1 a known =>
    refine List.eq_nil_iff_forall_not_mem.2 fun e he => ?_
    obtain ⟨k, hk⟩ := (Aft.mem_entries e).1 he
    have hrow := h k
    rw [row?_of_get? known, Aft.get?_installed, hk] at hrow
    contradiction
  case h_2 => rfl

theorem row?_outside {change : Event} (outside : change.isOutside) : (r.step change).row? ni k = r.row? ni k := by
  cases change with
  | failNext | removeInterface => rfl
  | configure => rw [step]; split <;> rfl
  | batch | removeOwnedBy | flush | discard => contradiction

end Rib

namespace Responder

variable {r : Responder} {ni : String} {k : EntryKey} {i : Installed Entry} {client : ClientId}

/-- A row outlives the end of a session unless it goes with the session and is not left in place. -/
theorem row?_disconnect_iff (hc : r.rib.Coherent) : (r.disconnect client).rib.row? ni k = some i ↔
    r.rib.row? ni k = some i ∧ ∀ params, r.parameters? client = some params → params.persistence = .delete →
      i.owner = client → r.rib.Retained (some client) ni k := by
  rcases r.rib_disconnect_cases client with ⟨preserve, hsame⟩ | ⟨⟨params, hparams, hdelete⟩, hremoved⟩
  · rw [hsame]
    refine (and_iff_left fun params hparams hdelete => ?_).symm
    rw [preserve params hparams] at hdelete
    contradiction
  · rw [hremoved, Rib.row?_removeOwnedBy_iff hc]
    exact and_congr_right fun _ => ⟨fun kept _ _ _ => kept, fun kept => kept params hparams hdelete⟩

end Responder

namespace Service

open Responder

variable {s : Service} {v : Event} {id? : Option (ClientId × ElectionId)} {r : Responder} {ni : String}
  {k : EntryKey} {i : Installed Entry} {client : ClientId}

/-- The event is a batch or a flush. -/
def Reprograms (s : Service) : Event → Prop
  | .proceed client => ∃ operations, s.duty client = .program operations
  | .flush _ => True
  | _ => False

/-! ### Sessions that end -/

theorem Stepped.ended (h : Stepped s v id? r) (hopen : s.responder.isOpen client)
    (hclosed : r.isOpen client = false) : r = s.responder.disconnect client := by
  have of_same (hsame : r.isOpen client = s.responder.isOpen client) :
      r = s.responder.disconnect client := by
    rw [hsame, hopen] at hclosed
    contradiction
  cases h with
  | idle | flushed | changed => exact of_same rfl
  | connected =>
    rw [isOpen, connect] at hclosed
    dsimp only at hclosed
    rw [Table.contains, Table.get?_insert] at hclosed
    split at hclosed
    · contradiction
    · rw [show (s.responder.sessions.get? client).isSome from hopen] at hclosed
      contradiction
  | deafened | settled | presented | programmed => exact of_same (isOpen_updateSession ..)
  | @closed _ other =>
    by_cases hother : client = other
    · rw [hother]
    · refine of_same ?_
      rw [isOpen_disconnect, if_neg hother]

/-- The number of a session is not given out again. -/
theorem Stepped.stays_closed (h : Stepped s v id? r) (past : client < s.responder.nextClient)
    (hclosed : s.responder.isOpen client = false) : r.isOpen client = false := by
  rw [← Bool.not_eq_true]
  intro hopen
  obtain ⟨session, hsession⟩ := Table.contains_iff.1 hopen
  rcases h.session hsession with ⟨hnew, -⟩ | ⟨old, hold, -⟩
  · exact Nat.lt_irrefl _ (hnew ▸ past)
  · rw [isOpen, Table.contains_iff.2 ⟨old, hold⟩] at hclosed
    contradiction

/-! ### Rows from one event to the next -/

/-- A row was there before, or it has just been written for an open session. -/
theorem Stepped.row_or_settled (hc : s.responder.rib.Coherent) (h : Stepped s v id? r)
    (hi : r.rib.row? ni k = some i) :
    s.responder.rib.row? ni k = some i ∨ (s.responder.parameters? i.owner).isSome := by
  cases h with
  | idle | connected | deafened | settled | presented => exact .inl hi
  | programmed turn settled =>
    rcases Rib.applyBatch_row_or_owner hc hi with hold | howner
    · exact .inl hold
    · exact .inr (howner ▸ settled)
  | closed => exact .inl ((row?_disconnect_iff hc).1 hi).1
  | flushed => exact .inl ((Rib.row?_flushAll_iff hc).1 hi).1
  | changed => rw [Rib.row?_outside ‹_›] at hi; exact .inl hi

/-- Nothing but a batch or a flush takes away a row whose owner is gone. -/
theorem Stepped.row_kept (hc : s.responder.rib.Coherent) (h : Stepped s v id? r) (quiet : ¬s.Reprograms v)
    (gone : s.responder.isOpen i.owner = false) (hi : s.responder.rib.row? ni k = some i) :
    r.rib.row? ni k = some i := by
  cases h with
  | idle | connected | deafened | settled | presented => exact hi
  | programmed turn settled => exact absurd ⟨_, turn⟩ quiet
  | closed =>
    refine (row?_disconnect_iff hc).2 ⟨hi, fun params hparams _ howner => ?_⟩
    rw [howner, isOpen_of_parameters? hparams] at gone
    contradiction
  | flushed => exact absurd trivial quiet
  | changed => rwa [Rib.row?_outside ‹_›]

end Service

namespace Chronicle

open Service

variable {h : Chronicle} {ni : String} {k : EntryKey} {i : Installed Entry} {es : List Event} {v : Event}

/-- Every session that settles its parameters asks for its entries to go with it. -/
def Deleting (h : Chronicle) : Prop :=
  ∀ es, es <+: h.events → ∀ client params, (h.before es).responder.parameters? client = some params →
    params.persistence = .delete

/-- The session of the client ends with the event that follows the given ones. -/
def Ends (h : Chronicle) (es : List Event) (v : Event) (client : ClientId) : Prop :=
  (h.before es).responder.isOpen client ∧ (h.before (es ++ [v])).responder.isOpen client = false

/-- The row was left in place when the session of its owner ended, and has outlived all batches and flushes since. -/
def LeftInPlace (h : Chronicle) (ni : String) (k : EntryKey) (i : Installed Entry) : Prop :=
  ∃ es v fs, h.events = es ++ v :: fs ∧ h.Ends es v i.owner ∧
    (h.before es).responder.rib.row? ni k = some i ∧
    (h.before es).responder.rib.Retained (some i.owner) ni k ∧
    ∀ gs w rest, fs = gs ++ w :: rest → (h.before (es ++ v :: gs)).service.Reprograms w →
      (h.before (es ++ v :: gs ++ [w])).responder.rib.row? ni k = some i

theorem LeftInPlace.of_ends (ends : h.Ends es v i.owner) (hi : (h.before es).responder.rib.row? ni k = some i)
    (kept : (h.before es).responder.rib.Retained (some i.owner) ni k) :
    (h.before (es ++ [v])).LeftInPlace ni k i :=
  ⟨es, v, [], rfl, ends, hi, kept, fun gs w rest hsplit => absurd hsplit (by simp)⟩

theorem LeftInPlace.concat (hleft : (h.before es).LeftInPlace ni k i)
    (hi : (h.before (es ++ [v])).responder.rib.row? ni k = some i) :
    (h.before (es ++ [v])).LeftInPlace ni k i := by
  obtain ⟨ds, w, fs, rfl, ends, hrow, kept, hsince⟩ : ∃ ds w fs, es = ds ++ w :: fs ∧ _ := hleft
  refine ⟨ds, w, fs ++ [v], by simp [before], ends, hrow, kept, fun gs u rest hsplit hre => ?_⟩
  rcases rest.eq_nil_or_concat with rfl | ⟨rest, x, rfl⟩
  · obtain ⟨rfl, hv⟩ := List.append_inj' hsplit rfl
    obtain rfl := List.singleton_inj.1 hv
    exact hi
  · rw [List.concat_eq_append, ← List.cons_append, ← List.append_assoc] at hsplit
    exact hsince gs u rest (List.append_inj' hsplit rfl).1 hre

/-- What is left in place stays there although its owner is gone. -/
theorem LeftInPlace.row (hleft : h.LeftInPlace ni k i) : h.responder.rib.row? ni k = some i := by
  obtain ⟨es, v, fs, hevents, ⟨hopen, hclosed⟩, hrow, kept, hsince⟩ := hleft
  -- since then the owner stays gone, as its number is not given out again
  have hstays (gs : List Event) (hgs : gs <+: fs) :
      (h.before (es ++ v :: gs)).responder.rib.row? ni k = some i ∧
      (h.before (es ++ v :: gs)).responder.isOpen i.owner = false ∧
      i.owner < (h.before (es ++ v :: gs)).responder.nextClient := by
    induction gs using List.reverseRecOn with
    | nil =>
      have hstep := h.stepped es v
      obtain ⟨session, hsession⟩ := Table.contains_iff.1 hopen
      refine ⟨?_, hclosed, ?_⟩
      · rw [hstep.ended hopen hclosed]
        exact (Responder.row?_disconnect_iff (h.before es).coherent).2 ⟨hrow, fun _ _ _ _ => kept⟩
      · exact Nat.lt_of_lt_of_le ((h.before es).orderly.numbered _ session hsession) hstep.nextClient_le
    | append_singleton gs w ih =>
      obtain ⟨hi, hgone, hpast⟩ := ih ((List.prefix_append gs [w]).trans hgs)
      have hstep := h.stepped (es ++ v :: gs) w
      rw [← List.cons_append, ← List.append_assoc]
      refine ⟨?_, hstep.stays_closed hpast hgone, Nat.lt_of_lt_of_le hpast hstep.nextClient_le⟩
      by_cases hre : (h.before (es ++ v :: gs)).service.Reprograms w
      · obtain ⟨rest, hrest⟩ := hgs
        exact hsince gs w rest (by rw [← hrest]; simp) hre
      · exact hstep.row_kept (h.before _).coherent hre hgone hi
  have hself : h.before (es ++ v :: fs) = h := by rw [← hevents]; rfl
  exact hself ▸ (hstays fs (List.prefix_refl fs)).1

/-- Every row belongs to an open session or was left in place. -/
theorem settled_or_leftInPlace (h : Chronicle) (es : List Event) (deleting : (h.before es).Deleting)
    (hi : (h.before es).responder.rib.row? ni k = some i) :
    ((h.before es).responder.parameters? i.owner).isSome ∨ (h.before es).LeftInPlace ni k i := by
  induction es using List.reverseRecOn with
  | nil =>
    have hnone : (h.before []).responder.rib.row? ni k = none := Rib.row?_create ..
    rw [hnone] at hi
    contradiction
  | append_singleton es v ih =>
    have hstep := h.stepped es v
    have hprefix : es <+: (h.before (es ++ [v])).events := List.prefix_append es [v]
    have hcases : ((h.before es).responder.parameters? i.owner).isSome ∨ (h.before es).LeftInPlace ni k i :=
      (hstep.row_or_settled (h.before es).coherent hi).elim
        (ih fun ds hds => deleting ds (hds.trans hprefix)) .inl
    rcases hcases with hsettled | hleft
    · rcases hstep.parameters? (h.before es).orderly hsettled with hsame | ⟨hnone, -⟩
      · exact .inl (hsame ▸ hsettled)
      · -- the session of the owner has just ended
        obtain ⟨params, hparams⟩ := Option.isSome_iff_exists.1 hsettled
        have ends : h.Ends es v i.owner :=
          ⟨Responder.isOpen_of_parameters? hparams, by rw [Responder.isOpen, Table.contains, hnone]; rfl⟩
        rw [hstep.ended ends.1 ends.2] at hi
        obtain ⟨hrow, hkept⟩ := (Responder.row?_disconnect_iff (h.before es).coherent).1 hi
        have hdelete := deleting es hprefix i.owner params hparams
        exact .inr (.of_ends ends hrow (hkept params hparams hdelete rfl))
    · exact .inr (hleft.concat hi)

/-- Once all sessions have ended, the tables hold exactly the rows that were left in place, and none of them is
an IPv4 entry. There is none at all unless a session ended while an entry of another client referred to one of
its own. -/
theorem rows_exactly_leftInPlace (h : Chronicle) (deleting : h.Deleting)
    (ended : ∀ client, h.responder.isOpen client = false) :
    (∀ ni k i, h.responder.rib.row? ni k = some i ↔ h.LeftInPlace ni k i) ∧
    (∀ ni p, h.responder.rib.row? ni (.ipv4 p) = none) ∧
    ((∀ es v fs client, h.events = es ++ v :: fs → h.Ends es v client →
      ¬(h.before es).responder.rib.Shares client) → ∀ ni, h.responder.rib.entries ni = []) := by
  have hiff (ni k i) : h.responder.rib.row? ni k = some i ↔ h.LeftInPlace ni k i := by
    refine ⟨fun hi => ?_, LeftInPlace.row⟩
    refine (h.settled_or_leftInPlace h.events deleting hi).resolve_left fun hsettled => ?_
    obtain ⟨params, hparams⟩ := Option.isSome_iff_exists.1 hsettled
    have hopen : h.responder.isOpen i.owner := Responder.isOpen_of_parameters? hparams
    rw [ended] at hopen
    contradiction
  refine ⟨hiff, fun ni p => ?_, fun apart ni => Rib.entries_eq_nil fun k => ?_⟩
  · refine Option.eq_none_iff_forall_ne_some.2 fun i hi => ?_
    obtain ⟨es, v, fs, -, -, -, kept, -⟩ := (hiff ..).1 hi
    exact Rib.not_retained_ipv4 kept
  · refine Option.eq_none_iff_forall_ne_some.2 fun i hi => ?_
    obtain ⟨es, v, fs, hevents, ends, hrow, kept, -⟩ := (hiff ..).1 hi
    exact apart es v fs i.owner hevents ends (kept.shares hrow rfl)

/-! ### An example -/

/-- There are finitely many moments to look at. -/
theorem deleting_of_forall (hall : ∀ n ≤ h.events.length,
    (h.before (h.events.take n)).responder.settled.all (·.2.persistence == .delete)) : h.Deleting := by
  intro es hes client params hparams
  have hmoment := hall es.length hes.length_le
  rw [← List.prefix_iff_eq_take.1 hes, List.all_eq_true] at hmoment
  exact beq_iff_eq.1 (hmoment (client, params) (Responder.mem_settled_iff.2 hparams))

/-- The first client writes a next-hop and the second one a group of it; then both leave. -/
def handover (events : List Event) : Chronicle where
  config := {}
  events :=
    let nextHop : Entry := .nextHop { index := 42, address := some (.v4 ⟨0xC0000206⟩) }
    let group : Entry := .nextHopGroup { id := 10, members := Table.ofList [(42, 1)] }
    let write (entry : Entry) : ModifyRequest :=
      { params := some {}, operations := [{ id := 1, networkInstance := "DEFAULT", op := .add, entry }] }
    .connect :: .connect :: (.request 1 (write nextHop) :: turns 1 2) ++ (.request 2 (write group) :: turns 2 2) ++
      .hangUp 1 :: .hangUp 2 :: events

theorem handover_deleting : (handover []).Deleting := deleting_of_forall (by decide +kernel)

theorem handover_over (client : ClientId) : (handover []).responder.isOpen client = false := by
  have hnone : (handover []).responder.sessions.rows = [] := by decide +kernel
  rw [Responder.isOpen, Table.contains, Table.get?, hnone]
  rfl

/-- The next-hop stays since the group of the second client referred to it when the first one left. -/
theorem rows_exactly_leftInPlace_handover :
    (handover []).Deleting ∧ (∀ client, (handover []).responder.isOpen client = false) ∧
    ∃ i, i.owner = 1 ∧ (handover []).LeftInPlace "DEFAULT" (.nextHop 42) i := by
  have howner : ((handover []).responder.rib.row? "DEFAULT" (.nextHop 42)).map (·.owner) = some 1 := by
    decide +kernel
  obtain ⟨i, hi, hone⟩ := Option.map_eq_some_iff.1 howner
  exact ⟨handover_deleting, handover_over, i, hone,
    ((rows_exactly_leftInPlace _ handover_deleting handover_over).1 ..).1 hi⟩

/-- All sessions have ended and asked for their entries to go, and one entry is still installed. -/
theorem next_hop_outlives_sessions :
    (handover []).Deleting ∧ (∀ client, (handover []).responder.isOpen client = false) ∧
    ((handover []).responder.rib.entries "DEFAULT").map (·.value.entry.key) = [.nextHop 42] :=
  ⟨handover_deleting, handover_over, by decide +kernel⟩

end Chronicle

end RouteProgramming
