import Mathlib.Data.List.Nodup
import RouteProgramming.Proofs.Aft.Snapshot
import RouteProgramming.Proofs.Rib.Clearance

/-! The numbers that the device gives to entries. One counter serves the three
tables of a network instance. It goes up when an operation installs an entry
where there was none, and then the new entry has the number that it reached; it
never goes down. So the numbers of a run, in the order in which they are given
out, are 1, 2, 3 and so on, none is given out twice, and an entry has the number
that its key was given last. -/

namespace RouteProgramming

namespace Aft

variable {a : Aft}

theorem numberFor_eq (a : Aft) (k : EntryKey) :
    a.numberFor k = ((a.installed.get? k).map (·.deviceId)).getD (a.lastDeviceId + 1) := by
  rw [numberFor, get?_installed, Option.map_map]
  rfl

end Aft

namespace Rib

open Aft

variable {r s : Rib} {c : Context} {ni : String} {k : EntryKey}

/-- The number of the entry under a key. -/
def number? (r : Rib) (ni : String) (k : EntryKey) : Option Nat := (r.row? ni k).map (·.deviceId)

/-- The number that a network instance gave out last. -/
def last? (r : Rib) (ni : String) : Option Nat := (r.instances.get? ni).map (·.lastDeviceId)

theorem number?_of_get? {a : Aft} (known : r.instances.get? ni = some a) (k : EntryKey) :
    r.number? ni k = (a.installed.get? k).map (·.deviceId) := by
  rw [number?, row?_of_get? known]

/-! ### One step -/

/-- What a step does to the numbers of a network instance: it gives none out, or the next one to a key that had
none. -/
inductive Numbered (r s : Rib) (ni : String) : Prop
  | kept (last : s.last? ni = r.last? ni) (numbers : ∀ k d, s.number? ni k = some d → r.number? ni k = some d)
  | given {n : Nat} {key : EntryKey} (was : r.last? ni = some n) (last : s.last? ni = some (n + 1))
    (absent : r.number? ni key = none)
    (numbers : ∀ k, s.number? ni k = if k = key then some (n + 1) else r.number? ni k)

theorem Numbered.refl (r : Rib) (ni : String) : Numbered r r ni := .kept rfl fun _ _ h => h

/-- Only the tables have numbers. -/
theorem Numbered.congr {t u : Rib} (h : Numbered r s ni) (hr : t.instances = r.instances)
    (hs : u.instances = s.instances) : Numbered t u ni := by
  have hlast {x y : Rib} (hxy : x.instances = y.instances) : x.last? ni = y.last? ni := by rw [last?, last?, hxy]
  have hnumber {x y : Rib} (hxy : x.instances = y.instances) (k : EntryKey) : x.number? ni k = y.number? ni k := by
    rw [number?, number?, row?, row?, hxy]
  cases h with
  | kept last numbers =>
    refine .kept (by rw [hlast hs, hlast hr, last]) fun k d hd => ?_
    rw [hnumber hr]
    exact numbers k d (hnumber hs k ▸ hd)
  | given was last absent numbers =>
    refine .given (by rw [hlast hr, was]) (by rw [hlast hs, last]) (by rw [hnumber hr, absent]) fun k => ?_
    rw [hnumber hs, hnumber hr, numbers]

theorem number?_setAft (r : Rib) (ni : String) (a : Aft) (ni' : String) (k : EntryKey) :
    (r.setAft ni a).number? ni' k =
      if ni' = ni then (a.installed.get? k).map (·.deviceId) else r.number? ni' k := by
  rw [number?, row?_setAft]
  split <;> rfl

theorem last?_setAft (r : Rib) (ni : String) (a : Aft) (ni' : String) :
    (r.setAft ni a).last? ni' = if ni' = ni then some a.lastDeviceId else r.last? ni' := by
  rw [last?, setAft]
  dsimp only
  rw [Table.get?_insert]
  split <;> rfl

/-- A network instance that a step leaves alone. -/
theorem Numbered.of_ne {a : Aft} {target : String} (hni : ni ≠ target) : Numbered r (r.setAft target a) ni := by
  refine .kept ?_ fun k d hd => ?_
  · rw [last?_setAft, if_neg hni]
  · rwa [number?_setAft, if_neg hni] at hd

/-- A new row has the next number, and a row that is replaced keeps its own. -/
theorem Numbered.of_insert {a b : Aft} {i : Installed Entry} (known : r.instances.get? ni = some a)
    (row : b.installed = a.installed.insert k i) (own : i.deviceId = a.numberFor k)
    (last : b.lastDeviceId = if a.contains k then a.lastDeviceId else a.lastDeviceId + 1) :
    Numbered r (r.setAft ni b) ni := by
  have hbefore : r.last? ni = some a.lastDeviceId := by rw [last?, known, Option.map_some]
  have hafter : (r.setAft ni b).last? ni = some b.lastDeviceId := by rw [last?_setAft, if_pos rfl]
  have hold := number?_of_get? known
  have hnew (j : EntryKey) :
      (r.setAft ni b).number? ni j = if j = k then some (a.numberFor k) else r.number? ni j := by
    rw [number?_setAft, if_pos rfl, row, Table.get?_insert, hold, ← own]
    split <;> rfl
  rw [numberFor_eq, ← hold] at hnew
  have hcontains : a.contains k = (r.number? ni k).isSome := by
    rw [contains_eq_installed, Table.contains, hold, Option.isSome_map]
  cases hk : r.number? ni k with
  | some d =>
    rw [hcontains, hk, Option.isSome_some, if_pos rfl] at last
    refine .kept (by rw [hafter, hbefore, last]) fun j d' hd => ?_
    rw [hnew, hk] at hd
    split at hd
    case isTrue hj => rw [hj, hk]; exact hd
    case isFalse => exact hd
  | none =>
    rw [hcontains, hk, Option.isSome_none, if_neg Bool.false_ne_true] at last
    refine .given hbefore (by rw [hafter, last]) hk fun j => ?_
    rw [hnew, hk]
    rfl

/-- Rows that go take no number along. -/
theorem Numbered.of_erase {a b : Aft} (known : r.instances.get? ni = some a)
    (row : b.installed = a.installed.erase k) (last : b.lastDeviceId = a.lastDeviceId) :
    Numbered r (r.setAft ni b) ni := by
  refine .kept ?_ fun j d hd => ?_
  · rw [last?_setAft, if_pos rfl, last, last?, known, Option.map_some]
  · obtain ⟨i, hi, hnumber⟩ := Option.map_eq_some_iff.1 hd
    exact Option.map_eq_some_iff.2 ⟨i, ((row?_erase known row).1 hi).1, hnumber⟩

theorem Upserted.numbered {e : Entry} {mustExist : Bool} {target : String} {out : Except Failure Unit × Rib}
    (h : Upserted r c target e mustExist out) (ni : String) : Numbered r out.2 ni := by
  cases h with
  | unknown | refused | rejected => exact .kept rfl fun _ _ hd => hd
  | @done a b f known check working sound row programmed number =>
    by_cases hni : ni = target
    · subst hni
      exact (Numbered.of_insert known row rfl number).congr rfl rfl
    · exact (Numbered.of_ne hni).congr (r := r) (s := r.setAft target b) rfl rfl

theorem Deleted.numbered {target : String} {out : Except Failure Unit × Rib} (h : Deleted r target k out)
    (ni : String) : Numbered r out.2 ni := by
  cases h with
  | unknown | absent | held | rejected => exact .kept rfl fun _ _ hd => hd
  | @done a b known free working sound row number =>
    by_cases hni : ni = target
    · subst hni
      exact (Numbered.of_erase known row number).congr rfl rfl
    · exact (Numbered.of_ne hni).congr (r := r) (s := r.setAft target b) rfl rfl

theorem Performed.numbered {o : Operation} {out : Except Failure Unit × Rib} (h : Performed r c o out)
    (ni : String) : Numbered r out.2 ni := by
  cases h with
  | barred => exact .refl r ni
  | written election op upserted => exact upserted.numbered ni
  | deleted election op deleted => exact deleted.numbered ni

theorem apply_numbered (hc : r.Coherent) (c : Context) (o : Operation) (ni : String) :
    Numbered r (r.apply c o).2.2 ni := by
  by_cases hid : o.id = 0 ∨ o.id ≤ c.lastOperationId
  · rw [apply_of_stale hid]
    exact .refl r ni
  · rw [apply_of_fresh hid]
    exact (perform_cases hc (used c o) o).numbered ni

/-- An entry that is there before an operation and after it has one number. -/
theorem number?_apply {o : Operation} {d d' : Nat} (hc : r.Coherent) (before : r.number? ni k = some d)
    (after : (r.apply c o).2.2.number? ni k = some d') : d' = d := by
  cases apply_numbered hc c o ni with
  | kept last numbers => exact Option.some.inj ((numbers k d' after).symm.trans before)
  | given was last absent numbers =>
    rw [numbers] at after
    split at after
    case isTrue hk =>
      rw [hk, absent] at before
      contradiction
    case isFalse => exact Option.some.inj (after.symm.trans before)

/-! ### Bulk removals -/

theorem Removes.last? {out : Removal × Rib} {target : String} (h : Removes r target out) (ni : String) :
    out.2.last? ni = r.last? ni := by
  by_cases hni : ni = target
  · subst hni
    exact h.numbers
  · exact congrArg (Option.map (·.lastDeviceId)) (h.tables ni hni)

theorem last?_removeOwnedIn (hc : r.Coherent) (client : ClientId) (nis : List String) :
    (r.removeOwnedIn client nis).2.last? ni = r.last? ni := by
  induction nis generalizing r with
  | nil => rfl
  | cons first rest ih =>
    have hfirst := (removeWhere_removes hc first (some client)).last? ni
    have hrest := ih ((removeWhere_clearing hc first (some client)).coherent hc)
    exact hrest.trans hfirst

/-- Without new rows there are no new numbers. -/
theorem number?_of_rows {d : Nat} (rows : ∀ k i, s.row? ni k = some i → r.row? ni k = some i)
    (h : s.number? ni k = some d) : r.number? ni k = some d := by
  obtain ⟨i, hi, hnumber⟩ := Option.map_eq_some_iff.1 h
  exact Option.map_eq_some_iff.2 ⟨i, rows k i hi, hnumber⟩

/-- The operations of an event. -/
def Event.operations : Event → List Operation
  | .batch _ operations => operations
  | _ => []

def Event.isBatch : Event → Bool
  | .batch _ _ => true
  | _ => false

theorem Event.eq_batch {v : Event} (hv : v.isBatch) : ∃ c os, v = .batch c os := by
  cases v with
  | batch c os => exact ⟨c, os, rfl⟩
  | removeOwnedBy | flush | discard | failNext | configure | removeInterface => contradiction

/-- Only the operations of a batch give out numbers. -/
theorem step_kept (hc : r.Coherent) {v : Event} (hv : v.isBatch = false) (ni : String) :
    (r.step v).last? ni = r.last? ni ∧ ∀ k d, (r.step v).number? ni k = some d → r.number? ni k = some d := by
  cases v with
  | batch => contradiction
  | removeOwnedBy client =>
    refine ⟨last?_removeOwnedIn hc client _, fun k d => number?_of_rows fun k i hi => ?_⟩
    exact ((row?_removeOwnedBy_iff hc).1 hi).1
  | flush target =>
    refine ⟨(removeWhere_removes hc target none).last? ni, fun k d => number?_of_rows fun k i hi => ?_⟩
    exact ((row?_removeWhere_iff hc).1 hi).1
  | discard target key =>
    refine ⟨(discard_cases hc target key).removes.last? ni, fun k d => number?_of_rows fun k i hi => ?_⟩
    exact ((row?_discard_iff hc).1 hi).1
  | failNext | removeInterface => exact ⟨rfl, fun _ _ hd => hd⟩
  | configure =>
    rw [step]
    split <;> exact ⟨rfl, fun _ _ hd => hd⟩

/-! ### What a step gives out -/

/-- The entries that a step has put where there was none, with their numbers. -/
def assigned (r s : Rib) (ni : String) : List (EntryKey × Nat) :=
  ((s.entries ni).map fun h => (h.value.entry.key, h.value.deviceId)).filter fun p => (r.number? ni p.1).isNone

theorem assigned_eq {b : Aft} (hs : s.Coherent) (known : s.instances.get? ni = some b) :
    assigned r s ni = (b.installed.rows.filter fun row => (r.number? ni row.1).isNone).map
      fun row => (row.1, row.2.deviceId) := by
  rw [assigned, entries, known]
  dsimp only
  rw [(hs.sound ni b known).numbers_entries, List.filter_map]
  rfl

theorem assigned_of_kept (hs : s.Coherent) (h : ∀ k d, s.number? ni k = some d → r.number? ni k = some d) :
    assigned r s ni = [] := by
  cases known : s.instances.get? ni with
  | none => rw [assigned, entries, known]; rfl
  | some b =>
    rw [assigned_eq hs known, List.map_eq_nil_iff, List.filter_eq_nil_iff]
    rintro ⟨k, i⟩ hrow
    have hnumber : s.number? ni k = some i.deviceId := by
      rw [number?_of_get? known, Table.get?_eq_some_iff.2 hrow]
      rfl
    rw [h k _ hnumber]
    exact Bool.false_ne_true

theorem assigned_of_given {n : Nat} {key : EntryKey} (hs : s.Coherent) (absent : r.number? ni key = none)
    (h : ∀ k, s.number? ni k = if k = key then some n else r.number? ni k) :
    assigned r s ni = [(key, n)] := by
  have hkey := h key
  rw [if_pos rfl] at hkey
  obtain ⟨i, hi, hnumber⟩ := Option.map_eq_some_iff.1 hkey
  obtain ⟨b, known, hrow⟩ := Option.bind_eq_some_iff.1 hi
  have honly : b.installed.rows.filter (fun row => (r.number? ni row.1).isNone) = [(key, i)] := by
    refine Table.filter_rows_eq_singleton hrow fun k j hj => ?_
    have hk := h k
    rw [number?_of_get? known, hj, Option.map_some] at hk
    by_cases heq : k = key
    · simp only [heq, absent, Option.isNone_none]
    · rw [if_neg heq] at hk
      simp only [heq, ← hk, Option.isNone_some, Bool.false_eq_true]
  rw [assigned_eq hs known, honly, List.map_singleton, hnumber]

theorem Numbered.length_assigned_le (hs : s.Coherent) (h : Numbered r s ni) : (assigned r s ni).length ≤ 1 := by
  cases h with
  | kept last numbers =>
    rw [assigned_of_kept hs numbers]
    exact Nat.zero_le _
  | given was last absent numbers =>
    rw [assigned_of_given hs absent numbers]
    exact Nat.le_refl _

/-! ### Any number of steps -/

/-- All that was given out in a network instance: the numbers in order, each to one key; and what is installed has
the number that its key was given last. -/
structure Tallied (r : Rib) (ni : String) (given : List (EntryKey × Nat)) : Prop where
  inOrder : given.map (·.2) = List.range' 1 ((r.last? ni).getD 0)
  latest : ∀ k d, r.number? ni k = some d →
    ∃ before since, given = before ++ (k, d) :: since ∧ ∀ p ∈ since, p.1 ≠ k

theorem Tallied.step {given : List (EntryKey × Nat)} (hs : s.Coherent) (h : Tallied r ni given)
    (step : Numbered r s ni) : Tallied s ni (given ++ assigned r s ni) := by
  cases step with
  | kept last numbers =>
    rw [assigned_of_kept hs numbers, List.append_nil]
    exact ⟨last ▸ h.inOrder, fun k d hd => h.latest k d (numbers k d hd)⟩
  | @given n key was last absent numbers =>
    rw [assigned_of_given hs absent numbers]
    constructor
    · have hbefore := h.inOrder
      rw [was, Option.getD_some] at hbefore
      rw [List.map_append, hbefore, last, Option.getD_some, List.range'_1_concat, Nat.add_comm 1 n]
      rfl
    · intro k d hd
      rw [numbers] at hd
      split at hd
      case isTrue hk =>
        obtain rfl := Option.some.inj hd
        exact ⟨given, [], by rw [hk], nofun⟩
      case isFalse hk =>
        obtain ⟨before, since, hgiven, hsince⟩ := h.latest k d hd
        refine ⟨before, since ++ [(key, n + 1)], by rw [hgiven, List.append_assoc]; rfl, fun p hp => ?_⟩
        rcases List.mem_append.1 hp with hp | hp
        · exact hsince p hp
        · rw [List.mem_singleton.1 hp]
          exact Ne.symm hk

/-- Two entries never have the same number. -/
theorem Tallied.injective {given : List (EntryKey × Nat)} (h : Tallied r ni given) {j : EntryKey} {d : Nat}
    (hk : r.number? ni k = some d) (hj : r.number? ni j = some d) : k = j := by
  obtain ⟨before, since, hgiven, -⟩ := h.latest k d hk
  obtain ⟨before', since', hgiven', -⟩ := h.latest j d hj
  have hnodup : (given.map (·.2)).Nodup := by
    rw [h.inOrder]
    exact List.nodup_range'
  have hmem : (k, d) ∈ given := hgiven ▸ List.mem_append_right _ (List.mem_cons_self ..)
  have hmem' : (j, d) ∈ given := hgiven' ▸ List.mem_append_right _ (List.mem_cons_self ..)
  exact congrArg Prod.fst (List.inj_on_of_nodup_map hnodup hmem hmem' rfl)

theorem Tallied.pos {given : List (EntryKey × Nat)} (h : Tallied r ni given) {d : Nat}
    (hk : r.number? ni k = some d) : 0 < d := by
  obtain ⟨before, since, hgiven, -⟩ := h.latest k d hk
  have hmem : d ∈ given.map (·.2) := by
    rw [hgiven]
    exact List.mem_map_of_mem (List.mem_append_right _ (List.mem_cons_self ..))
  rw [h.inOrder, List.mem_range'_1] at hmem
  omega

theorem Tallied.distinct {given : List (EntryKey × Nat)} {a : Aft} (h : Tallied r ni given)
    (known : r.instances.get? ni = some a) : a.Distinct := by
  have hnumber {k : EntryKey} {e : InstalledEntry} (hk : a.get? k = some e) :
      r.number? ni k = some e.value.deviceId := by
    rw [number?_of_get? known, get?_installed, hk]
    rfl
  intro j k g e hj hk hsame
  exact h.injective (hnumber hj) (hsame ▸ hnumber hk)

/-- What the operations of a batch give out, one after the other. -/
def assignedByBatch (r : Rib) (c : Context) (ni : String) : List Operation → List (EntryKey × Nat)
  | [] => []
  | o :: os =>
    let next := (r.apply c o).2.2.count (r.apply c o).1
    assigned r next ni ++ next.assignedByBatch (r.apply c o).2.1 ni os

def assignedBy (r : Rib) (ni : String) : Event → List (EntryKey × Nat)
  | .batch c operations => r.assignedByBatch c ni operations
  | v => assigned r (r.step v) ni

theorem assignedBy_eq {v : Event} (hv : v.isBatch = false) : r.assignedBy ni v = assigned r (r.step v) ni := by
  cases v with
  | batch => contradiction
  | removeOwnedBy | flush | discard | failNext | configure | removeInterface => rfl

def assignedIn (r : Rib) (ni : String) : List Event → List (EntryKey × Nat)
  | [] => []
  | v :: vs => r.assignedBy ni v ++ (r.step v).assignedIn ni vs

theorem Tallied.applyBatch {given : List (EntryKey × Nat)} (hc : r.Coherent) (h : Tallied r ni given)
    (c : Context) (os : List Operation) :
    Tallied (r.applyBatch c os).2.2 ni (given ++ r.assignedByBatch c ni os) := by
  induction os generalizing r c given with
  | nil => rwa [assignedByBatch, List.append_nil]
  | cons o os ih =>
    have hs := ((apply_edit hc c o).count (r.apply c o).1).coherent hc
    have hstep : Numbered r ((r.apply c o).2.2.count (r.apply c o).1) ni :=
      (apply_numbered hc c o ni).congr rfl rfl
    rw [assignedByBatch, ← List.append_assoc]
    exact ih hs (h.step hs hstep) (r.apply c o).2.1

theorem Tallied.event {given : List (EntryKey × Nat)} (hc : r.Coherent) (h : Tallied r ni given) (v : Event) :
    Tallied (r.step v) ni (given ++ r.assignedBy ni v) := by
  cases hv : v.isBatch with
  | true =>
    obtain ⟨c, os, rfl⟩ := Event.eq_batch hv
    exact h.applyBatch hc c os
  | false =>
    obtain ⟨last, numbers⟩ := step_kept hc hv ni
    rw [assignedBy_eq hv]
    exact h.step ((step_cases hc v).coherent hc) (.kept last numbers)

theorem Tallied.run {given : List (EntryKey × Nat)} (hc : r.Coherent) (h : Tallied r ni given) (es : List Event) :
    Tallied (r.run es) ni (given ++ r.assignedIn ni es) := by
  induction es generalizing r given with
  | nil => rwa [assignedIn, List.append_nil]
  | cons v es ih =>
    rw [assignedIn, ← List.append_assoc]
    exact ih ((step_cases hc v).coherent hc) (h.event hc v)

theorem assignedIn_append (r : Rib) (ni : String) (es fs : List Event) :
    r.assignedIn ni (es ++ fs) = r.assignedIn ni es ++ (r.run es).assignedIn ni fs := by
  induction es generalizing r with
  | nil => rfl
  | cons v es ih => rw [List.cons_append, assignedIn, ih, assignedIn, List.append_assoc]; rfl

/-! ### How many there can be -/

theorem length_assignedByBatch_le (hc : r.Coherent) (c : Context) (ni : String) (os : List Operation) :
    (r.assignedByBatch c ni os).length ≤ os.length := by
  induction os generalizing r c with
  | nil => exact Nat.le_refl _
  | cons o os ih =>
    have hs := ((apply_edit hc c o).count (r.apply c o).1).coherent hc
    have hstep : Numbered r ((r.apply c o).2.2.count (r.apply c o).1) ni :=
      (apply_numbered hc c o ni).congr rfl rfl
    have hfirst := hstep.length_assigned_le hs
    have hrest := ih hs (r.apply c o).2.1
    simp only [assignedByBatch, List.length_append, List.length_cons]
    omega

theorem length_assignedIn_le (hc : r.Coherent) (ni : String) (es : List Event) :
    (r.assignedIn ni es).length ≤ (es.flatMap Event.operations).length := by
  induction es generalizing r with
  | nil => exact Nat.le_refl _
  | cons v es ih =>
    have hs := (step_cases hc v).coherent hc
    have hfirst : (r.assignedBy ni v).length ≤ v.operations.length := by
      cases hv : v.isBatch with
      | true =>
        obtain ⟨c, os, rfl⟩ := Event.eq_batch hv
        exact length_assignedByBatch_le hc c ni os
      | false =>
        obtain ⟨-, numbers⟩ := step_kept hc hv ni
        rw [assignedBy_eq hv, assigned_of_kept hs numbers]
        exact Nat.zero_le _
    have hrest := ih hs
    simp only [assignedIn, List.flatMap_cons, List.length_append]
    omega

end Rib

namespace History

open Rib

/-- All numbers that a network instance has given out, with their keys. -/
def assignments (h : History) (ni : String) : List (EntryKey × Nat) :=
  (Rib.create h.networkInstances h.capacity).assignedIn ni h.events

theorem tallied (h : History) (ni : String) : Tallied h.rib ni (h.assignments ni) := by
  have hstart : Tallied (Rib.create h.networkInstances h.capacity) ni [] := by
    constructor
    · rw [last?]
      cases hni : (Rib.create h.networkInstances h.capacity).instances.get? ni with
      | none => rfl
      | some a => rw [get?_create hni]; rfl
    · intro k d hd
      rw [number?, row?_create] at hd
      contradiction
  exact hstart.run (create_coherent ..) h.events

/-- The numbers of a network instance are above zero and differ, and its snapshot mirrors it. An operation that
finds an entry and leaves one has not renumbered it. What a run has given out are the numbers from 1 on, each
once and at most one for each operation; it only grows; and an entry has what its key was given last. -/
theorem telemetry_faithful (h : History) :
    (∀ ni a, h.rib.instances.get? ni = some a → (a.entries.map (·.value.deviceId)).Nodup ∧
      (∀ e ∈ a.entries, 0 < e.value.deviceId) ∧ (a.telemetry ni).Mirrors a) ∧
    (∀ c o ni k d d', h.rib.number? ni k = some d → (h.rib.apply c o).2.2.number? ni k = some d' → d' = d) ∧
    ∀ ni, (h.assignments ni).map (·.2) = List.range' 1 (h.assignments ni).length ∧
      (h.assignments ni).length ≤ (h.events.flatMap Event.operations).length ∧
      (∀ es, es <+: h.events → (h.before es).assignments ni <+: h.assignments ni) ∧
      ∀ k d, h.rib.number? ni k = some d →
        ∃ before since, h.assignments ni = before ++ (k, d) :: since ∧ ∀ p ∈ since, p.1 ≠ k := by
  refine ⟨fun ni a known => ?_, fun c o ni k d d' => number?_apply h.coherent, fun ni => ?_⟩
  · have hs := h.coherent.sound ni a known
    have hd := (h.tallied ni).distinct known
    refine ⟨hd.nodup_entries, fun e he => ?_, hs.telemetry_mirrors hd ni⟩
    obtain ⟨k, hk⟩ := (Aft.mem_entries e).1 he
    have hnumber : h.rib.number? ni k = some e.value.deviceId := by
      rw [number?_of_get? known, Aft.get?_installed, hk]
      rfl
    exact (h.tallied ni).pos hnumber
  · have hinOrder := (h.tallied ni).inOrder
    have hlength := congrArg List.length hinOrder
    rw [List.length_map, List.length_range'] at hlength
    refine ⟨hlength ▸ hinOrder, length_assignedIn_le (create_coherent ..) ni h.events, ?_, (h.tallied ni).latest⟩
    rintro es ⟨fs, hfs⟩
    have hwhole : h.assignments ni = (h.before es).assignments ni ++ (h.before es).rib.assignedIn ni fs := by
      rw [assignments, ← hfs, assignedIn_append]
      rfl
    rw [hwhole]
    exact List.prefix_append ..

/-! ### An example -/

/-- The prefix is deleted and added again, and then the next-hop is replaced. -/
def renewal : History :=
  oneRoute [.batch { client := 1, lastOperationId := 3 }
    [{ id := 4, networkInstance := "DEFAULT", op := .delete, entry := .ipv4 ⟨documentation, 10⟩ },
     { id := 5, networkInstance := "DEFAULT", op := .add, entry := .ipv4 ⟨documentation, 10⟩ },
     { id := 6, networkInstance := "DEFAULT", op := .replace,
       entry := .nextHop { index := 42, interface := some "Ethernet4" } }]]

/-- The prefix that is added again has a new number, and the next-hop that is replaced keeps the first one. -/
theorem telemetry_faithful_renewal :
    renewal.assignments "DEFAULT" =
      [(.nextHop 42, 1), (.nextHopGroup 10, 2), (.ipv4 documentation, 3), (.ipv4 documentation, 4)] ∧
    (∃ before since, renewal.assignments "DEFAULT" = before ++ (.nextHop 42, 1) :: since ∧
      ∀ p ∈ since, p.1 ≠ .nextHop 42) ∧
    ∃ a, renewal.rib.instances.get? "DEFAULT" = some a ∧
      a.telemetry "DEFAULT" = ⟨"DEFAULT", [⟨1, 42, none, some "Ethernet4"⟩], [⟨2, 10, [⟨1, 1⟩]⟩],
        [⟨documentation, 2⟩]⟩ ∧ (a.telemetry "DEFAULT").Mirrors a := by
  obtain ⟨a, known, hshown⟩ : ∃ a, renewal.rib.instances.get? "DEFAULT" = some a ∧
      a.telemetry "DEFAULT" = ⟨"DEFAULT", [⟨1, 42, none, some "Ethernet4"⟩], [⟨2, 10, [⟨1, 1⟩]⟩],
        [⟨documentation, 2⟩]⟩ := ⟨_, rfl, rfl⟩
  have hnumber : renewal.rib.number? "DEFAULT" (.nextHop 42) = some 1 := rfl
  have hfaithful := renewal.telemetry_faithful
  exact ⟨rfl, (hfaithful.2.2 "DEFAULT").2.2.2 _ _ hnumber, a, known, hshown, (hfaithful.1 _ a known).2.2⟩

end History

end RouteProgramming
