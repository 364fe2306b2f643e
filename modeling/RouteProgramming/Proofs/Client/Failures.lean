import RouteProgramming.Proofs.Client.Notes

/-! Calls that fail. A call may fail for a draft that is wrong, and then nothing
is noted; or for want of a line, when the client has noted all that goes with the
request but the operations. It then waits for an answer that nobody will give,
has an election id that nobody has been told, or has given out numbers that no
operation carries. The next start makes up for all of it but the numbers, which
later batches leave out. -/

namespace RouteProgramming

namespace Client

variable {c : Client} {r : Responder} {a : Call}

/-! ### The life of a client -/

/-- What happens to a client. The device goes its own way in between, so that it comes with every deed that it is part
of. -/
inductive Deed where
  | configure (connection : Connection)
  | start (r : Responder)
  | call (r : Responder) (a : Call)
  | hear (ms : List ModifyResponse)
  | wait (r : Responder) (timeout : Nat)
  | stop (r : Responder)

def after (c : Client) : Deed → Client
  | .configure connection => { c with connection }
  | .start r => (c.start r).2.1
  | .call r a => (c.perform r a).2.1
  | .hear ms => c.hear ms
  | .wait r timeout => (c.await r timeout).2
  | .stop r => (c.stop r).1

/-- The numbers of the operations that a deed has sent. -/
def sent (c : Client) : Deed → List UInt64
  | .call r a =>
    match (c.perform r a).1 with
    | .ok ids => ids
    | .error _ => []
  | _ => []

/-- How many numbers a deed has given to operations that it has not sent. -/
def unsent (c : Client) : Deed → Nat
  | .call r a =>
    match c.request a, c.lineFault? r with
    | .ok _, some _ => a.size
    | _, _ => 0
  | _ => 0

def life (c : Client) (deeds : List Deed) : Client := deeds.foldl after c

def allSent : Client → List Deed → List UInt64
  | _, [] => []
  | c, d :: deeds => c.sent d ++ (c.after d).allSent deeds

def allUnsent : Client → List Deed → Nat
  | _, [] => 0
  | c, d :: deeds => c.unsent d + (c.after d).allUnsent deeds

/-- From one moment to another a client has numbered so many operations, and sent some of them in their order. -/
structure Numbers (c d : Client) (ids : List UInt64) (total : Nat) : Prop where
  next : d.nextOperationId = c.nextOperationId + UInt64.ofNat total
  ids : ids.Sublist ((List.range total).map (c.nextOperationId + UInt64.ofNat ·))

theorem Numbers.none {d : Client} (h : d.nextOperationId = c.nextOperationId) : Numbers c d [] 0 :=
  ⟨h.trans (UInt64.add_zero _).symm, .slnil⟩

theorem Numbers.trans {d f : Client} {ids ids' : List UInt64} {j k : Nat} (h : Numbers c d ids j)
    (h' : Numbers d f ids' k) : Numbers c f (ids ++ ids') (j + k) := by
  refine ⟨?_, ?_⟩
  · rw [h'.next, h.next, UInt64.ofNat_add, UInt64.add_assoc]
  · rw [numbers_add, ← h.next]
    exact h.ids.append h'.ids

theorem nextOperationId_start (c : Client) (r : Responder) : (c.start r).2.1.nextOperationId = c.nextOperationId := by
  rw [start]
  split <;> rfl

theorem nextOperationId_await (c : Client) (r : Responder) (timeout : Nat) :
    (c.await r timeout).2.nextOperationId = c.nextOperationId := by
  have hself : c.annotated false false c.electionId c.nextOperationId = c := by
    simp [annotated]
  have hawait := congrArg (·.2.nextOperationId) (c.await_annotated r timeout c.electionId c.nextOperationId)
  rw [hself] at hawait
  exact hawait

theorem numbers_call (c : Client) (r : Responder) (a : Call) :
    Numbers c (c.after (.call r a)) (c.sent (.call r a)) ((c.sent (.call r a)).length + c.unsent (.call r a)) := by
  rw [after, sent, unsent]
  cases hrequest : c.request a with
  | error cause =>
    obtain ⟨-, hperform⟩ := perform_of_draftError hrequest
    rw [hperform]
    exact .none rfl
  | ok request =>
    obtain ⟨-, hnext⟩ := numbers_request hrequest
    have hfault : c.fault? r a = c.lineFault? r := by
      rw [fault?, hrequest]
    cases hline : c.lineFault? r with
    | none =>
      obtain ⟨hids, hnext⟩ := perform_of_no_fault (hfault.trans hline)
      rw [hids]
      dsimp only
      rw [List.length_map, List.length_range, Nat.add_zero]
      exact ⟨hnext, .refl _⟩
    | some e =>
      rw [perform_of_fault (hfault.trans hline)]
      dsimp only
      rw [List.length_nil, Nat.zero_add]
      exact ⟨hnext, List.nil_sublist _⟩

theorem numbers_after (c : Client) (d : Deed) : Numbers c (c.after d) (c.sent d) ((c.sent d).length + c.unsent d) := by
  cases d with
  | configure | hear | stop => exact .none rfl
  | start r => exact .none (nextOperationId_start c r)
  | call r a => exact numbers_call c r a
  | wait r timeout => exact .none (nextOperationId_await c r timeout)

theorem numbers_life (c : Client) (deeds : List Deed) :
    Numbers c (c.life deeds) (c.allSent deeds) ((c.allSent deeds).length + c.allUnsent deeds) := by
  induction deeds generalizing c with
  | nil => exact .none rfl
  | cons d deeds ih =>
    have hboth := (numbers_after c d).trans (ih (c.after d))
    rw [allSent, allUnsent, List.length_append, Nat.add_add_add_comm]
    exact hboth

/-- A batch goes on behind the operations sent so far if the numbers given to others are none, or as many as there are
numbers. -/
theorem numbers_continue_iff (first : UInt64) (sent unsent size : Nat) :
    (List.range size).map (first + UInt64.ofNat (sent + unsent) + UInt64.ofNat ·) =
      (List.range size).map (first + UInt64.ofNat sent + UInt64.ofNat ·) ↔ size = 0 ∨ UInt64.ofNat unsent = 0 := by
  rw [UInt64.ofNat_add, ← UInt64.add_assoc]
  constructor
  case mp =>
    intro h
    refine Classical.or_iff_not_imp_left.mpr fun hsize => ?_
    have hmem : 0 ∈ List.range size := List.mem_range.mpr (Nat.pos_of_ne_zero hsize)
    have hfirst := List.map_inj_left.mp h 0 hmem
    exact UInt64.add_eq_left.mp ((UInt64.add_left_inj _).mp hfirst)
  case mpr =>
    rintro (rfl | hzero)
    · rfl
    · rw [hzero, UInt64.add_zero]

/-- The operations of a life in which none was left behind have the numbers from the first one on. -/
theorem allSent_of_none_unsent {deeds : List Deed} (h : c.allUnsent deeds = 0) :
    c.allSent deeds = (List.range (c.allSent deeds).length).map (c.nextOperationId + UInt64.ofNat ·) := by
  have hsent := (numbers_life c deeds).ids
  rw [h, Nat.add_zero] at hsent
  refine hsent.eq_of_length ?_
  rw [List.length_map, List.length_range]

/-- A batch that is sent has the next numbers of the client's life. -/
theorem ids_of_life {deeds : List Deed} {batch : List (OperationType × EntryDraft)} {ids : List UInt64}
    (h : ((life {} deeds).modify r batch).1 = .ok ids) :
    let sent := (allSent {} deeds).length
    let unsent := allUnsent {} deeds
    ids = (List.range batch.length).map (1 + UInt64.ofNat (sent + unsent) + UInt64.ofNat ·) ∧
    (ids = (List.range batch.length).map (1 + UInt64.ofNat sent + UInt64.ofNat ·) ↔
      batch = [] ∨ UInt64.ofNat unsent = 0) := by
  intro sent unsent
  have hnone : (life {} deeds).fault? r (.modify batch) = none := by
    refine Option.eq_none_iff_forall_ne_some.mpr fun e hfault => ?_
    have herror : ((life {} deeds).modify r batch).1 = .error e := perform_error_iff.mpr hfault
    rw [h] at herror
    cases herror
  have hids : ids = (List.range batch.length).map (1 + UInt64.ofNat (sent + unsent) + UInt64.ofNat ·) := by
    have hsent := h.symm.trans (perform_of_no_fault hnone).1
    rw [(numbers_life {} deeds).next] at hsent
    exact Except.ok.inj hsent
  refine ⟨hids, ?_⟩
  rw [hids, numbers_continue_iff, List.length_eq_zero_iff]

/-- A call that fails, for a draft or for want of a line, leaves the device as it was and the client with what it notes
before it sends: with the same pending answers, election id and next number exactly if that is nothing new, and then it
is the same client. What is noted keeps a wait from ending well before there are answers to what has not been sent,
unless it is a batch; it is the election id of later flushes; and a start forgets it but for the numbers. Over the life
of a client a batch has the numbers behind those of all operations so far, sent or not: it goes on behind those sent,
which are 1, 2, 3 and so on if there were no others, exactly if the others are none, or as many as there are numbers. -/
theorem failed_calls_note (c : Client) (r : Responder) (a : Call) {e : ClientError}
    (failed : (c.perform r a).1 = .error e) :
    let d := (c.perform r a).2.1
    c.fault? r a = some e ∧ (c.perform r a).2 = (c.noted a, r) ∧ (c.Spared a → d = c) ∧
    (d.pending = c.pending ∧ d.electionId = c.electionId ∧ d.nextOperationId = c.nextOperationId ↔ c.Spared a) ∧
    (∀ s timeout, (d.await s timeout).1 = .ok () → (c.await s timeout).1 = .ok () ∧
      (a.introduces → ∃ m ∈ c.inbox, m.paramsResult.isSome) ∧ (a.presents c → ∃ m ∈ c.inbox, m.electionId.isSome)) ∧
    (a.introduces = false → a.presents c = false →
      ∀ s timeout, (d.await s timeout).1 = (c.await s timeout).1) ∧
    (∀ s target electionOverride, d.flush s target electionOverride =
      { c with electionId := a.electionId c }.flush s target electionOverride) ∧
    (∀ s, (c.start s).1 = .ok () → d.start s =
      (.ok (), { (c.start s).2.1 with nextOperationId := d.nextOperationId }, (c.start s).2.2)) ∧
    ∀ (deeds : List Deed) (s : Responder) batch ids,
      let sent := allSent {} deeds
      let unsent := allUnsent {} deeds
      (unsent = 0 → sent = (List.range sent.length).map (1 + UInt64.ofNat ·)) ∧
      (((life {} deeds).modify s batch).1 = .ok ids →
        ids = (List.range batch.length).map (1 + UInt64.ofNat (sent.length + unsent) + UInt64.ofNat ·) ∧
        (ids = (List.range batch.length).map (1 + UInt64.ofNat sent.length + UInt64.ofNat ·) ↔
          batch = [] ∨ UInt64.ofNat unsent = 0)) := by
  have hfault := perform_error_iff.mp failed
  rw [perform_of_fault hfault]
  refine ⟨hfault, rfl, noted_of_spared, ⟨fun ⟨hpending, helection, hnext⟩ => ?_, fun hspared => ?_⟩,
    fun s timeout => await_noted_ok, await_noted, flush_noted c a, fun s => start_noted,
    fun deeds s batch ids => ⟨allSent_of_none_unsent, ids_of_life⟩⟩
  · exact spared_of_unchanged hpending helection hnext
  · have hsame := noted_of_spared hspared
    exact ⟨congrArg pending hsame, congrArg electionId hsame, congrArg nextOperationId hsame⟩

/-! ### Examples -/

/-- A client that enters an election with 0:5 when it starts. -/
def contender : Client where
  connection := {
    stub := some .device
    params := { redundancy := .singleElectedPrimary }
    initialElectionId := some ⟨0, 5⟩ }

/-- A batch of one next-hop. -/
def oneHop : List (OperationType × EntryDraft) :=
  [(.add, { fields := .nextHop (some 42) (some "192.0.2.6") none })]

/-- The client's session has ended, and the answers to its first request are still to be looked at. -/
def cutOff : Client :=
  { contender with
    stream := some ⟨.device 1, [{ paramsResult := some .ok }, { electionId := some ⟨0, 5⟩ }]⟩
    electionId := some ⟨0, 5⟩
    pending := { params := true, election := true } }

/-- A batch comes before the start, and one after. -/
def early (r : Responder) : List Deed :=
  [.configure contender.connection, .call r (.modify oneHop), .start r]

theorem failed_calls_note_early :
    let r := Responder.create {}
    let s := (contender.start r).2.2
    ((contender.perform r .startSending).2 = (contender.introduced, r) ∧ ¬contender.Spared .startSending) ∧
    ((cutOff.perform r .startSending).2.1 = cutOff ∧ (cutOff.await r 0).1 = .ok ()) ∧
    (contender.introduced.start r).2.1 = (contender.start r).2.1 ∧
    (((life {} (early r)).modify s oneHop).1 = .ok [2] ∧
      [2] ≠ (List.range 1).map ((1 : UInt64) + UInt64.ofNat (allSent {} (early r)).length + UInt64.ofNat ·)) := by
  intro r s
  have hunstarted : (contender.perform r .startSending).1 = .error .notStarted := by decide +kernel
  have hended : (cutOff.perform r .startSending).1 = .error .sessionClosed := by decide +kernel
  obtain ⟨-, hleft, -, hiff, -, -, -, hstart, hlife⟩ := failed_calls_note contender r .startSending hunstarted
  obtain ⟨-, -, hsame, -, hwait, -⟩ := failed_calls_note cutOff r .startSending hended
  refine ⟨⟨hleft, fun hspared => ?_⟩, ⟨hsame ⟨rfl, fun _ => rfl⟩, ?_⟩, ?_, ?_⟩
  · exact absurd (hiff.mpr hspared).1 (by decide +kernel)
  · have hok : ((cutOff.perform r .startSending).2.1.await r 0).1 = .ok () := by decide +kernel
    exact (hwait _ _ hok).1
  · have hok : (contender.start r).1 = .ok () := by decide +kernel
    have hagain := congrArg (·.2.1) (hstart r hok)
    rw [hleft] at hagain
    exact hagain
  · have hok : ((life {} (early r)).modify s oneHop).1 = .ok [2] := by decide +kernel
    obtain ⟨-, hiff⟩ := (hlife _ _ _ _).2 hok
    refine ⟨hok, fun hgap => ?_⟩
    have hcases : oneHop = [] ∨ UInt64.ofNat (allUnsent {} (early r)) = 0 := hiff.mp hgap
    exact absurd hcases (by decide +kernel)

/-- A client that has failed to send anything cannot end a wait that it could end before, does not begin with 1, and
loses the right to flush what it has the right to flush. -/
theorem unsent_calls_felt :
    let r := Responder.create {}
    let c := (contender.startSending r).2.1
    let d := (c.modify r oneHop).2.1
    let (d₁, r₁) := (d.start r).2
    let (d₂, r₂) := (d₁.startSending r₁).2
    let (d₃, r₃) := (d₂.modify r₂ oneHop).2
    let (d₄, r₄) := d₃.stop r₃
    let d₅ := (d₄.updateElectionId r₄ ⟨0, 3⟩).2.1
    (contender.startSending r).1 = .error .notStarted ∧
    (contender.await r 5000).1 = .ok () ∧ (c.await r 5000).1 = .error .notStarted ∧
    (c.modify r oneHop).1 = .error .notStarted ∧ (d₂.modify r₂ oneHop).1 = .ok [2] ∧
    (d₄.updateElectionId r₄ ⟨0, 3⟩).1 = .error .notStarted ∧
    (d₄.flush r₄ (some .all) false).1 = .ok { outcome := .ok } ∧
    (d₅.flush r₄ (some .all) false).1 = .error (.refused (.flushWithLowId ⟨0, 3⟩ ⟨0, 5⟩)) := by
  decide +kernel

end Client

end RouteProgramming
