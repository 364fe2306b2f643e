import RouteProgramming.Rib
import RouteProgramming.Proofs.Aft.Contents

/-! A plain map that batches can be applied to. A ledger has, for each known
network instance, a finite map from keys to an entry, its owner and its result,
and the number of calls that the hardware will refuse. It counts no holders and
keeps no hardware tables: what refers to a key is read off the entries. -/

namespace RouteProgramming

structure Record where
  entry : Entry
  owner : ClientId
  outcome : Outcome
deriving DecidableEq, Repr

structure Ledger where
  capacity : Nat
  contents : Table String (Table EntryKey Record)
  failures : Nat
deriving DecidableEq, Repr

namespace Ledger

variable {l : Ledger} {c : Context} {o : Operation} {t : Table EntryKey Record}

/-! ### Admission -/

def sizeOf (t : Table EntryKey Record) (kind : EntryKind) : Nat :=
  t.rows.countP (fun r => decide (r.1.kind = kind))

def referrers (t : Table EntryKey Record) (k : EntryKey) : Nat :=
  t.rows.countP (fun r => decide (k ∈ r.2.entry.references))

/-- What must hold of the entries of a network instance for an operation. -/
def Allows (t : Table EntryKey Record) (capacity : Nat) (o : Operation) : Prop :=
  match o.op with
  | .add => o.entry.validate = .ok () ∧ (t.contains o.key ∨ sizeOf t o.entry.kind < capacity) ∧
      ∀ k ∈ o.entry.references, t.contains k
  | .replace => o.entry.validate = .ok () ∧ t.contains o.key ∧ ∀ k ∈ o.entry.references, t.contains k
  | .delete => t.contains o.key ∧ ∀ k i, t.get? k = some i → o.key ∉ i.entry.references

def Admits (l : Ledger) (c : Context) (o : Operation) : Prop :=
  c.checkElection o = .ok () ∧ ∃ t, l.contents.get? o.networkInstance = some t ∧ Allows t l.capacity o

/-! ### Objections -/

/-- The first reason against writing an entry. -/
def objectionToWrite? (t : Table EntryKey Record) (capacity : Nat) (networkInstance : String) (e : Entry)
    (mustExist : Bool) : Option Failure :=
  match e.validate with
  | .error cause => some (.fault cause)
  | .ok () =>
    if mustExist ∧ ¬t.contains e.key then some (.notFound e.key)
    else if ¬t.contains e.key ∧ capacity ≤ sizeOf t e.kind then
      some (.tableFull e.kind networkInstance capacity)
    else (e.references.find? (fun k => !t.contains k)).map (.forwardReference e.key)

/-- The first reason against deleting a key. -/
def objectionToDelete? (t : Table EntryKey Record) (k : EntryKey) : Option Failure :=
  if ¬t.contains k then some (.notFound k)
  else if 0 < referrers t k then some (.stillReferenced k (referrers t k))
  else none

def objection? (l : Ledger) (c : Context) (o : Operation) : Option Failure :=
  match c.checkElection o with
  | .error f => some f
  | .ok () =>
    match l.contents.get? o.networkInstance with
    | none => some (.unknownNetworkInstance o.networkInstance)
    | some t =>
      match o.op with
      | .add => objectionToWrite? t l.capacity o.networkInstance o.entry false
      | .replace => objectionToWrite? t l.capacity o.networkInstance o.entry true
      | .delete => objectionToDelete? t o.key

theorem objectionToWrite?_eq_none_iff {capacity : Nat} {ni : String} {e : Entry} {mustExist : Bool} :
    objectionToWrite? t capacity ni e mustExist = none ↔
      e.validate = .ok () ∧ (mustExist → t.contains e.key) ∧
        (t.contains e.key ∨ sizeOf t e.kind < capacity) ∧ ∀ k ∈ e.references, t.contains k := by
  rw [objectionToWrite?]
  split
  case h_1 hv => simp [hv]
  case h_2 hv =>
    have hfind : (e.references.find? (fun k => !t.contains k)).map (Failure.forwardReference e.key) = none ↔
        ∀ k ∈ e.references, t.contains k := by
      rw [Option.map_eq_none_iff, List.find?_eq_none]
      simp
    split
    case isTrue hm => simp [hv, hm]
    case isFalse hm =>
      split
      case isTrue hfull => simp [hv, hfull.1, Nat.not_lt.2 hfull.2]
      case isFalse hroom =>
        rw [hfind]
        rw [not_and, Decidable.not_not] at hm
        rw [not_and, Nat.not_le] at hroom
        exact ⟨fun h => ⟨hv, hm, Decidable.or_iff_not_imp_left.2 hroom, h⟩, fun h => h.2.2.2⟩

theorem referrers_pos_iff {k : EntryKey} :
    0 < referrers t k ↔ ∃ j i, t.get? j = some i ∧ k ∈ i.entry.references := by
  rw [referrers, List.countP_pos_iff]
  constructor
  · rintro ⟨⟨j, i⟩, hr, hk⟩
    exact ⟨j, i, Table.get?_eq_some_iff.2 hr, of_decide_eq_true hk⟩
  · rintro ⟨j, i, hj, hk⟩
    exact ⟨(j, i), Table.get?_eq_some_iff.1 hj, decide_eq_true hk⟩

theorem objectionToDelete?_eq_none_iff {k : EntryKey} :
    objectionToDelete? t k = none ↔ t.contains k ∧ ∀ j i, t.get? j = some i → k ∉ i.entry.references := by
  have hfree : (∀ j i, t.get? j = some i → k ∉ i.entry.references) ↔ ¬0 < referrers t k := by
    rw [referrers_pos_iff]
    simp
  rw [hfree, objectionToDelete?]
  split
  case isTrue h => simp [h]
  case isFalse h =>
    rw [Decidable.not_not] at h
    split
    case isTrue hheld => simp [hheld]
    case isFalse hfree => simp [h, hfree]

/-- The objections are to exactly the operations that are not admitted. -/
theorem objection?_eq_none_iff : l.objection? c o = none ↔ l.Admits c o := by
  rw [objection?, Admits]
  split
  case h_1 h => simp [h]
  case h_2 h =>
    split
    case h_1 hn => simp [hn]
    case h_2 t hn =>
      have hadmits : (c.checkElection o = .ok () ∧ ∃ t, l.contents.get? o.networkInstance = some t ∧
          Allows t l.capacity o) ↔ Allows t l.capacity o := by
        simp [h, hn]
      rw [hadmits, Allows]
      split
      case h_1 =>
        rw [objectionToWrite?_eq_none_iff]
        simp [Operation.key]
      case h_2 =>
        rw [objectionToWrite?_eq_none_iff]
        exact ⟨fun ⟨hv, hk, _, hr⟩ => ⟨hv, hk rfl, hr⟩, fun ⟨hv, hk, hr⟩ => ⟨hv, fun _ => hk, .inl hk, hr⟩⟩
      case h_3 => exact objectionToDelete?_eq_none_iff

instance : Decidable (l.Admits c o) := decidable_of_iff (l.objection? c o = none) objection?_eq_none_iff

/-! ### Steps -/

def fail (o : Operation) (error : Option String) : Acknowledgment :=
  { id := o.id, op := o.op, key := o.key, outcome := .failed, error }

/-- The contents after an operation that is carried out. -/
def edit (l : Ledger) (c : Context) (o : Operation) : Ledger :=
  { l with
    contents := l.contents.modify o.networkInstance (fun t =>
      match o.op with
      | .add | .replace => t.insert o.key ⟨o.entry, c.client, c.success⟩
      | .delete => t.erase o.key) }

/-- An operation whose id is in order. -/
def perform (l : Ledger) (c : Context) (o : Operation) : Acknowledgment × Ledger :=
  if l.Admits c o then
    if 0 < l.failures then
      (fail o (some (Failure.rejected o.key .injected).message), { l with failures := l.failures - 1 })
    else ({ id := o.id, op := o.op, key := o.key, outcome := c.success }, l.edit c o)
  else (fail o ((l.objection? c o).map (·.message)), l)

def step (l : Ledger) (c : Context) (o : Operation) : Acknowledgment × Context × Ledger :=
  if o.id = 0 ∨ o.id ≤ c.lastOperationId then
    (fail o (some (Failure.staleId o.id c.lastOperationId).message), c, l)
  else
    let c := { c with lastOperationId := o.id }
    let (a, l) := l.perform c o
    (a, c, l)

def applyBatch (l : Ledger) (c : Context) : List Operation → List Acknowledgment × Context × Ledger
  | [] => ([], c, l)
  | o :: os =>
    let (a, c, l) := l.step c o
    let (as, c, l) := l.applyBatch c os
    (a :: as, c, l)

theorem perform_of_objection {f : Failure} (h : l.objection? c o = some f) :
    l.perform c o = (fail o (some f.message), l) := by
  rw [perform, if_neg (fun hadmits => by rw [objection?_eq_none_iff.2 hadmits] at h; contradiction), h]
  rfl

theorem perform_of_failing (h : l.objection? c o = none) (failing : 0 < l.failures) :
    l.perform c o =
      (fail o (some (Failure.rejected o.key .injected).message), { l with failures := l.failures - 1 }) := by
  rw [perform, if_pos (objection?_eq_none_iff.1 h), if_pos failing]

theorem perform_of_working (h : l.objection? c o = none) (working : l.failures = 0) :
    l.perform c o = ({ id := o.id, op := o.op, key := o.key, outcome := c.success }, l.edit c o) := by
  rw [perform, if_pos (objection?_eq_none_iff.1 h), if_neg (by omega)]

end Ledger

end RouteProgramming
