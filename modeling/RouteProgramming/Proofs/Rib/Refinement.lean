import RouteProgramming.Proofs.Rib.History
import RouteProgramming.Proofs.Rib.Ledger

/-! Batches refine a plain map. The ledger of a RIB forgets device numbers,
counts of holders and the hardware tables. Applying a batch to a RIB with a
history acknowledges and leaves exactly what the ledger does when its steps are
folded over the batch. The counts of the RIB have no bound of their own; with a
capacity below 2 ^ 32 - 1 they fit 32 bits (`Coherent.holders?_le`). -/

namespace RouteProgramming

/-! ### The ledger of a RIB -/

namespace Aft

variable {a b : Aft} {k : EntryKey}

def records (a : Aft) : Table EntryKey Record :=
  a.installed.mapValues (fun i => ⟨i.entry, i.owner, i.outcome⟩)

theorem contains_records (a : Aft) (k : EntryKey) : a.records.contains k = a.contains k := by
  rw [Table.contains, records, Table.get?_mapValues, Option.isSome_map, contains_eq_installed,
    Table.contains]

theorem sizeOf_records (a : Aft) (kind : EntryKind) : Ledger.sizeOf a.records kind = a.sizeOf kind := by
  rw [Ledger.sizeOf, records, Table.countP_mapValues, sizeOf_eq_installed]

theorem referrers_records (a : Aft) (k : EntryKey) : Ledger.referrers a.records k = a.referrers k := by
  rw [Ledger.referrers, records, Table.countP_mapValues, referrers_eq]

theorem records_insert {i : Installed Entry} (row : b.installed = a.installed.insert k i) :
    b.records = a.records.insert k ⟨i.entry, i.owner, i.outcome⟩ := by
  rw [records, row, Table.mapValues_insert, records]

theorem records_erase (row : b.installed = a.installed.erase k) : b.records = a.records.erase k := by
  rw [records, row, Table.mapValues_erase, records]

end Aft

namespace Rib

variable {r : Rib} {c : Context} {o : Operation} {ni : String}

def ledger (r : Rib) : Ledger := ⟨r.capacity, r.instances.mapValues Aft.records, r.plane.failures⟩

theorem get?_ledger (r : Rib) (ni : String) :
    r.ledger.contents.get? ni = (r.instances.get? ni).map Aft.records :=
  Table.get?_mapValues ..

theorem ledger_put {a b : Aft} {g : Table EntryKey Record → Table EntryKey Record} (f : Fib)
    (known : r.instances.get? ni = some a) (row : b.records = g a.records) :
    (r.put ni b f).ledger = { r.ledger with contents := r.ledger.contents.modify ni g } := by
  have hcontents : (r.put ni b f).ledger.contents = r.ledger.contents.modify ni g := by
    rw [Table.modify_eq_insert (by rw [get?_ledger, known]; rfl), ← row]
    exact Table.mapValues_insert ..
  rw [← hcontents]
  rfl

/-! ### Objections -/

theorem objectionToWrite?_records (a : Aft) (capacity : Nat) (ni : String) (e : Entry) (mustExist : Bool) :
    Ledger.objectionToWrite? a.records capacity ni e mustExist =
      match checkWrite a capacity ni e mustExist with
      | .error f => some f
      | .ok () => none := by
  have hmissing : (mustExist && !a.contains e.key) = true ↔ mustExist ∧ ¬a.contains e.key := by simp
  have hfull : (!a.contains e.key && decide (capacity ≤ a.sizeOf e.kind)) = true ↔
      ¬a.contains e.key ∧ capacity ≤ a.sizeOf e.kind := by simp
  simp only [Ledger.objectionToWrite?, checkWrite, Aft.contains_records, Aft.sizeOf_records, hmissing,
    hfull]
  cases e.validate with
  | error => rfl
  | ok =>
    dsimp only
    by_cases hm : mustExist ∧ ¬a.contains e.key
    · rw [if_pos hm, if_pos hm]
    · rw [if_neg hm, if_neg hm]
      by_cases hf : ¬a.contains e.key ∧ capacity ≤ a.sizeOf e.kind
      · rw [if_pos hf, if_pos hf]
      · rw [if_neg hf, if_neg hf]
        cases e.references.find? (fun k => !a.contains k) <;> rfl

variable {a : Aft}

theorem objection?_of_unknown (election : c.checkElection o = .ok ())
    (unknown : r.instances.get? o.networkInstance = none) :
    r.ledger.objection? c o = some (.unknownNetworkInstance o.networkInstance) := by
  rw [Ledger.objection?, election, get?_ledger, unknown]
  rfl

theorem objection?_of_write (election : c.checkElection o = .ok ()) (op : o.op ≠ .delete)
    (known : r.instances.get? o.networkInstance = some a) :
    r.ledger.objection? c o =
      match checkWrite a r.capacity o.networkInstance o.entry (o.op = .replace) with
      | .error f => some f
      | .ok () => none := by
  rw [← objectionToWrite?_records, Ledger.objection?, election, get?_ledger, known]
  cases h : o.op with
  | add | replace => rfl
  | delete => exact absurd h op

theorem objection?_of_delete (election : c.checkElection o = .ok ()) (op : o.op = .delete)
    (known : r.instances.get? o.networkInstance = some a) :
    r.ledger.objection? c o =
      if ¬a.contains o.key then some (.notFound o.key)
      else if 0 < a.referrers o.key then some (.stillReferenced o.key (a.referrers o.key))
      else none := by
  rw [← Aft.contains_records, ← Aft.referrers_records, Ledger.objection?, election, get?_ledger, known, op]
  rfl

theorem objection?_of_free (hc : r.Coherent) (election : c.checkElection o = .ok ()) (op : o.op = .delete)
    (known : r.instances.get? o.networkInstance = some a) (free : a.holders? o.key = some 0) :
    r.ledger.objection? c o = none := by
  have hzero := (hc.sound _ _ known).holders?_eq free
  have hcontains := Aft.contains_of_holders? free
  rw [objection?_of_delete election op known, if_neg (not_not_intro hcontains), ← hzero,
    if_neg (Nat.lt_irrefl _)]

/-! ### Operations -/

theorem edit_of_write {b : Aft} {f : Fib} (op : o.op ≠ .delete)
    (known : r.instances.get? o.networkInstance = some a)
    (row : b.installed = a.installed.insert o.key ⟨o.entry, c.client, a.numberFor o.key, c.success⟩) :
    (r.put o.networkInstance b f).ledger = r.ledger.edit c o := by
  refine ledger_put f known ((Aft.records_insert row).trans ?_)
  cases h : o.op with
  | add | replace => rfl
  | delete => exact absurd h op

theorem edit_of_delete {b : Aft} {f : Fib} (op : o.op = .delete)
    (known : r.instances.get? o.networkInstance = some a) (row : b.installed = a.installed.erase o.key) :
    (r.put o.networkInstance b f).ledger = r.ledger.edit c o := by
  refine ledger_put f known ((Aft.records_erase row).trans ?_)
  rw [op]

theorem Performed.refines {out : Except Failure Unit × Rib} (hc : r.Coherent) (h : Performed r c o out) :
    r.ledger.perform c o = (acknowledge o (out.1.map (fun _ => c.success)), out.2.ledger) := by
  cases h with
  | barred election =>
    refine Ledger.perform_of_objection ?_
    rw [Ledger.objection?, election]
  | written election op upserted =>
    cases upserted with
    | unknown unknown => exact Ledger.perform_of_objection (objection?_of_unknown election unknown)
    | refused known check =>
      refine Ledger.perform_of_objection ?_
      rw [objection?_of_write election op known, check]
    | rejected known check failing =>
      refine Ledger.perform_of_failing ?_ failing
      rw [objection?_of_write election op known, check]
    | done known check working sound row programmed =>
      have hnone : r.ledger.objection? c o = none := by rw [objection?_of_write election op known, check]
      rw [Ledger.perform_of_working hnone working, edit_of_write op known row]
      rfl
  | deleted election op deleted =>
    cases deleted with
    | unknown unknown => exact Ledger.perform_of_objection (objection?_of_unknown election unknown)
    | absent known absent =>
      refine Ledger.perform_of_objection ?_
      rw [objection?_of_delete election op known, if_pos (by simp [Aft.contains, absent])]
    | held known held =>
      refine Ledger.perform_of_objection ?_
      have hpos := (hc.sound _ _ known).holders?_eq held
      have hcontains := Aft.contains_of_holders? held
      rw [objection?_of_delete election op known, if_neg (not_not_intro hcontains), ← hpos,
        if_pos (Nat.succ_pos _)]
    | rejected known free failing =>
      exact Ledger.perform_of_failing (objection?_of_free hc election op known free) failing
    | done known free working sound row =>
      rw [Ledger.perform_of_working (objection?_of_free hc election op known free) working,
        edit_of_delete op known row]
      rfl

theorem apply_refines (hc : r.Coherent) (c : Context) (o : Operation) :
    r.ledger.step c o = (acknowledge o (r.apply c o).1, (r.apply c o).2.1, (r.apply c o).2.2.ledger) := by
  rw [Ledger.step]
  by_cases hid : o.id = 0 ∨ o.id ≤ c.lastOperationId
  · rw [if_pos hid, apply_of_stale hid]
    rfl
  · rw [if_neg hid, apply_of_fresh hid]
    exact congrArg (fun p => (p.1, used c o, p.2)) ((perform_cases hc (used c o) o).refines hc)

theorem applyBatch_refines (hc : r.Coherent) (c : Context) (os : List Operation) :
    r.ledger.applyBatch c os =
      ((r.applyBatch c os).1, (r.applyBatch c os).2.1, (r.applyBatch c os).2.2.ledger) := by
  induction os generalizing r c with
  | nil => rfl
  | cons o os ih =>
    have hrest := ih (((apply_edit hc c o).count (r.apply c o).1).coherent hc) (r.apply c o).2.1
    rw [Ledger.applyBatch, apply_refines hc]
    dsimp only
    rw [show (r.apply c o).2.2.ledger = ((r.apply c o).2.2.count (r.apply c o).1).ledger from rfl, hrest]
    rfl

end Rib

namespace History

open Rib

/-- Applying a batch to a RIB with a history is folding the steps of its ledger over the batch: the same
acknowledgments, the same context and the same contents. -/
theorem batch_refines (h : History) (c : Context) (os : List Operation) :
    h.rib.ledger.applyBatch c os =
      ((h.rib.applyBatch c os).1, (h.rib.applyBatch c os).2.1, (h.rib.applyBatch c os).2.2.ledger) :=
  applyBatch_refines h.coherent c os

end History

end RouteProgramming
