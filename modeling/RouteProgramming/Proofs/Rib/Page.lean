import RouteProgramming.Proofs.Rib.Clearance
import RouteProgramming.Proofs.Rib.Mirror
import RouteProgramming.Proofs.Rib.Refinement

/-! A RIB with a single network instance and working hardware. All there is to
know of it is one page of records: a batch of the ids that come next turns the
page, operation by operation, and a removal of all that is on it leaves an
empty page. -/

namespace RouteProgramming

/-! ### Ledgers of one page -/

namespace Ledger

variable {c : Context} {o : Operation} {t : Table EntryKey Record} {capacity : Nat} {ni : String}

def page (capacity : Nat) (ni : String) (t : Table EntryKey Record) : Ledger := ⟨capacity, .ofList [(ni, t)], 0⟩

/-- The first reason against an operation on a page. -/
def objectionOn? (t : Table EntryKey Record) (capacity : Nat) (o : Operation) : Option Failure :=
  match o.op with
  | .add => objectionToWrite? t capacity o.networkInstance o.entry false
  | .replace => objectionToWrite? t capacity o.networkInstance o.entry true
  | .delete => objectionToDelete? t o.key

/-- What an operation of a client makes of a page when it is carried out. -/
def revise (client : ClientId) (outcome : Outcome) (t : Table EntryKey Record) (o : Operation) :
    Table EntryKey Record :=
  match o.op with
  | .add | .replace => t.insert o.key ⟨o.entry, client, outcome⟩
  | .delete => t.erase o.key

def turn (capacity : Nat) (client : ClientId) (outcome : Outcome) (t : Table EntryKey Record) (o : Operation) :
    Acknowledgment × Table EntryKey Record :=
  match objectionOn? t capacity o with
  | some f => (fail o (some f.message), t)
  | none => ({ id := o.id, op := o.op, key := o.key, outcome }, revise client outcome t o)

def turnAll (capacity : Nat) (client : ClientId) (outcome : Outcome) : Table EntryKey Record → List Operation →
    List Acknowledgment × Table EntryKey Record
  | t, [] => ([], t)
  | t, o :: os =>
    let first := turn capacity client outcome t o
    let rest := turnAll capacity client outcome first.2 os
    (first.1 :: rest.1, rest.2)

theorem ids_turnAll (capacity : Nat) (client : ClientId) (outcome : Outcome) (t : Table EntryKey Record)
    (os : List Operation) : (turnAll capacity client outcome t os).1.map (·.id) = os.map (·.id) := by
  induction os generalizing t with
  | nil => rfl
  | cons o os ih =>
    have hid : (turn capacity client outcome t o).1.id = o.id := by
      rw [turn]
      split <;> rfl
    rw [turnAll, List.map_cons, List.map_cons, ih, hid]

/-- The operation is for the network instance, and its client may program. -/
structure Welcome (ni : String) (c : Context) (o : Operation) : Prop where
  target : o.networkInstance = ni
  election : c.checkElection o = .ok ()

theorem objection?_page (h : Welcome ni c o) : (page capacity ni t).objection? c o = objectionOn? t capacity o := by
  obtain ⟨rfl, election⟩ := h
  rw [objection?, election, page]
  dsimp only
  rw [Table.get?_singleton_self]
  rfl

theorem edit_page (h : Welcome ni c o) :
    (page capacity ni t).edit c o = page capacity ni (revise c.client c.success t o) := by
  obtain ⟨rfl, -⟩ := h
  rw [edit, page]
  dsimp only
  rw [Table.modify_singleton]
  rfl

theorem perform_page (h : Welcome ni c o) : (page capacity ni t).perform c o =
    ((turn capacity c.client c.success t o).1, page capacity ni (turn capacity c.client c.success t o).2) := by
  have hobjection : (page capacity ni t).objection? c o = _ := objection?_page h
  rw [turn]
  split
  case h_1 f hf => exact perform_of_objection (hobjection.trans hf)
  case h_2 hnone => rw [perform_of_working (hobjection.trans hnone) rfl, edit_page h]

theorem step_page (h : Welcome ni c o) (next : c.lastOperationId < o.id) : (page capacity ni t).step c o =
    ((turn capacity c.client c.success t o).1, { c with lastOperationId := o.id },
      page capacity ni (turn capacity c.client c.success t o).2) := by
  have hfresh : ¬(o.id = 0 ∨ o.id ≤ c.lastOperationId) := by
    rintro (hzero | hle)
    · rw [hzero] at next
      exact absurd next UInt64.not_lt_zero
    · exact absurd hle (UInt64.not_le.2 next)
  have hused : Welcome ni { c with lastOperationId := o.id } o := ⟨h.target, h.election⟩
  rw [step, if_neg hfresh]
  dsimp only
  rw [perform_page hused]
  rfl

/-- A batch whose ids go on from the last one turns the page. -/
theorem applyBatch_page {os : List Operation} (welcome : ∀ o ∈ os, Welcome ni c o)
    (ascending : (c.lastOperationId :: os.map (·.id)).IsChain (· < ·)) :
    (page capacity ni t).applyBatch c os = ((turnAll capacity c.client c.success t os).1,
      { c with lastOperationId := (os.map (·.id)).getLastD c.lastOperationId },
      page capacity ni (turnAll capacity c.client c.success t os).2) := by
  induction os generalizing c t with
  | nil => rfl
  | cons o os ih =>
    rw [List.map_cons, List.isChain_cons_cons] at ascending
    have hrest := ih (c := { c with lastOperationId := o.id }) (t := (turn capacity c.client c.success t o).2)
      (fun p hp => ⟨(welcome p (.tail _ hp)).target, (welcome p (.tail _ hp)).election⟩) ascending.2
    rw [applyBatch, step_page (welcome o (.head _)) ascending.1]
    dsimp only
    rw [hrest, List.map_cons, List.getLastD_cons]
    rfl

end Ledger

/-! ### RIBs of one page -/

namespace Rib

open Aft

variable {r s : Rib} {n : Nat} {ni ni' : String} {t : Table EntryKey Record} {k : EntryKey} {i : Installed Entry}
  {owner : Option ClientId}

/-- The only network instance has the records of the page, and the hardware has the same entries. -/
structure Holds (r : Rib) (capacity : Nat) (ni : String) (t : Table EntryKey Record) : Prop where
  mirrored : r.Mirrored
  ledger : r.ledger = .page capacity ni t

namespace Holds

theorem capacity (h : r.Holds n ni t) : r.capacity = n := congrArg Ledger.capacity h.ledger

theorem contents (h : r.Holds n ni t) (ni' : String) :
    (r.instances.get? ni').map records = (Table.ofList [(ni, t)]).get? ni' := by
  rw [← get?_ledger, h.ledger]
  rfl

theorem aft (h : r.Holds n ni t) : ∃ a, r.instances.get? ni = some a ∧ a.records = t := by
  apply Option.map_eq_some_iff.1
  rw [h.contents, Table.get?_singleton_self]

theorem networkInstances (h : r.Holds n ni t) : r.networkInstances = [ni] := by
  have hkeys : r.ledger.contents.keys = r.networkInstances := by
    simp [Rib.ledger, Table.mapValues, Table.keys, Rib.networkInstances]
  rw [← hkeys, h.ledger]
  rfl

theorem installed? (h : r.Holds n ni t) (k : EntryKey) : r.installed? ni k = (t.get? k).map (·.entry) := by
  obtain ⟨a, known, rfl⟩ := h.aft
  rw [installed?_of_get? known, records, Table.get?_mapValues, Option.map_map]
  rfl

/-- The tables are sound and have the entries of the page. -/
theorem table (h : r.Holds n ni t) : ∃ a, r.instances.get? ni = some a ∧ a.Sound ∧
    ∀ k, (a.get? k).map (·.value.entry) = (t.get? k).map (·.entry) := by
  obtain ⟨a, known, -⟩ := h.aft
  refine ⟨a, known, h.mirrored.coherent.sound ni a known, fun k => ?_⟩
  rw [← h.installed? k, Rib.installed?, known]
  rfl

theorem row (h : r.Holds n ni t) (hrow : r.row? ni' k = some i) :
    ni' = ni ∧ t.get? k = some ⟨i.entry, i.owner, i.outcome⟩ := by
  obtain ⟨a, known, hk⟩ := Option.bind_eq_some_iff.1 hrow
  have hpage := h.contents ni'
  rw [known, Option.map_some] at hpage
  obtain ⟨rfl, ha⟩ := Table.get?_singleton.1 hpage.symm
  rw [← ha, records, Table.get?_mapValues, hk]
  exact ⟨rfl, rfl⟩

theorem batch {c : Context} {os : List Operation} (h : r.Holds n ni t) (welcome : ∀ o ∈ os, Ledger.Welcome ni c o)
    (ascending : (c.lastOperationId :: os.map (·.id)).IsChain (· < ·)) :
    (r.applyBatch c os).1 = (Ledger.turnAll n c.client c.success t os).1 ∧
      (r.applyBatch c os).2.1.lastOperationId = (os.map (·.id)).getLastD c.lastOperationId ∧
      (r.applyBatch c os).2.2.Holds n ni (Ledger.turnAll n c.client c.success t os).2 ∧
      (r.applyBatch c os).2.2.plane.interfaces = r.plane.interfaces := by
  have hbatch := applyBatch_refines h.mirrored.coherent c os
  rw [h.ledger, Ledger.applyBatch_page welcome ascending, Prod.mk.injEq, Prod.mk.injEq] at hbatch
  obtain ⟨hacks, hcontext, hledger⟩ := hbatch
  refine ⟨hacks.symm, ?_, ⟨h.mirrored.step (v := .batch c os) nofun, hledger.symm⟩, ?_⟩
  · rw [← hcontext]
  · exact (applyBatch_agreeOn (S := fun _ => True) h.mirrored.working (fun _ _ => trivial) c).plane.interfaces.symm

/-! #### Clearing -/

/-- When every row is selected, nothing is left in place. -/
theorem not_retained (all : ∀ k i, r.row? ni k = some i → Selected owner i) : ¬r.Retained owner ni k := by
  intro h
  induction h with
  | spared row other refers => exact other (all _ _ row)
  | chained row kept refers ih => exact ih

/-- A removal of all that is on the page leaves an empty page. -/
theorem removeWhere (h : r.Holds n ni t) (all : ∀ k x, t.get? k = some x → ∀ c ∈ owner, x.owner = c)
    (mirrored : (r.removeWhere ni owner).2.Mirrored) : (r.removeWhere ni owner).2.Holds n ni ∅ := by
  have hc := h.mirrored.coherent
  have hremoves := removeWhere_removes hc ni owner
  obtain ⟨a, known, -⟩ := h.aft
  obtain ⟨b, hb⟩ := hremoves.known known
  have hrow (k : EntryKey) : b.installed.get? k = none := by
    rw [← row?_of_get? hb]
    refine Option.eq_none_iff_forall_ne_some.2 fun i hi => ?_
    have hkept := ((row?_removeWhere_iff hc).1 hi)
    have hall (k : EntryKey) (i : Installed Entry) (hi : r.row? ni k = some i) : Selected owner i :=
      all k _ (h.row hi).2
    exact not_retained hall (hkept.2 rfl (hall k i hkept.1))
  have hempty : b.records = ∅ := Table.ext_get? fun k => by
    rw [records, Table.get?_mapValues, hrow k]
    rfl
  have hcontents : (r.removeWhere ni owner).2.ledger.contents = .ofList [(ni, ∅)] := Table.ext_get? fun ni' => by
    rw [get?_ledger]
    by_cases hni : ni' = ni
    · rw [hni, hb, Table.get?_singleton_self, Option.map_some, hempty]
    · rw [hremoves.tables ni' hni, h.contents]
      have hother {x : Table EntryKey Record} : (Table.ofList [(ni, x)]).get? ni' = none :=
        Option.eq_none_iff_forall_ne_some.2 fun y hy => hni (Table.get?_singleton.1 hy).1
      rw [hother, hother]
  have hcapacity := (removeWhere_clearing hc ni owner).capacity
  refine ⟨mirrored, ?_⟩
  rw [← h.capacity, Ledger.page, ← hcontents, ← hcapacity, ← mirrored.working]
  rfl

theorem flushAll (h : r.Holds n ni t) : (r.flushAll r.networkInstances).2.Holds n ni ∅ ∧
    (r.flushAll r.networkInstances).2.plane.interfaces = r.plane.interfaces := by
  rw [h.networkInstances]
  refine ⟨h.removeWhere nofun (h.mirrored.step (v := .flush ni) nofun), ?_⟩
  exact (removeWhere_agreeOn h.mirrored.working).plane.interfaces.symm

theorem removeOwnedBy {client : ClientId} (h : r.Holds n ni t) (all : ∀ k x, t.get? k = some x → x.owner = client) :
    (r.removeOwnedBy client).2.Holds n ni ∅ ∧ (r.removeOwnedBy client).2.plane.interfaces = r.plane.interfaces := by
  have hmirrored := h.mirrored.step (v := .removeOwnedBy client) nofun
  rw [step, Rib.removeOwnedBy, h.networkInstances] at hmirrored
  rw [Rib.removeOwnedBy, h.networkInstances]
  refine ⟨h.removeWhere (fun k x hx c hc => ?_) hmirrored, ?_⟩
  · rw [all k x hx, Option.mem_some_iff.1 hc]
  · exact (removeWhere_agreeOn h.mirrored.working).plane.interfaces.symm

end Holds

end Rib

end RouteProgramming
