import RouteProgramming.Proofs.Rib.Mirror
import RouteProgramming.Proofs.Rib.Numbering

/-! A delete takes back an add. Sound tables are determined by their entries and
the last number that was given out, since every row counts its referrers; so is
the hardware by its entries. An entry that is added under a free key and deleted
again therefore leaves everything as it was but the counter of the numbers,
adding it once more differs in its number alone, and adding it twice in a row is
adding it once. The counts that are compared have no bound of their own; with a
capacity below 2 ^ 32 - 1 they fit 32 bits (`Coherent.holders?_le`). -/

namespace RouteProgramming

/-! ### Tables -/

namespace Aft

variable {a b : Aft} {k : EntryKey}

theorem Sound.get?_eq (hs : a.Sound) (k : EntryKey) :
    a.get? k = (a.installed.get? k).map (fun i => ⟨i, a.referrers k⟩) := by
  rw [get?_installed, Option.map_map]
  cases hk : a.get? k with
  | none => rfl
  | some h => rw [Option.map_some, Function.comp_apply, ← hs.counted k h hk]

/-- In sound tables the entries determine the counts of holders. -/
theorem Sound.ext (ha : a.Sound) (hb : b.Sound) (rows : a.installed = b.installed)
    (last : a.lastDeviceId = b.lastDeviceId) : a = b := by
  refine ext_get? (fun k => ?_) last
  rw [ha.get?_eq, hb.get?_eq, referrers_eq, referrers_eq, rows]

/-- The counter takes no part in what is installed. -/
theorem Sound.withLast (hs : a.Sound) (n : Nat) : Aft.Sound { a with lastDeviceId := n } :=
  ⟨hs.stored, hs.closed, hs.counted⟩

/-- The tables with the next number used up. -/
def skipNumber (a : Aft) : Aft := { a with lastDeviceId := a.lastDeviceId + 1 }

/-- An entry as it is with the next number. -/
def renumber (h : InstalledEntry) : InstalledEntry := ⟨{ h.value with deviceId := h.value.deviceId + 1 }, h.holders⟩

/-- Two writes under one key, of which the second gives the next number. -/
theorem Sound.get?_renumbered {t : Table EntryKey (Installed Entry)} {i : Installed Entry} (ha : a.Sound) (hb : b.Sound)
    (rowa : a.installed = t.insert k i) (rowb : b.installed = t.insert k { i with deviceId := i.deviceId + 1 })
    (j : EntryKey) : b.get? j = if j = k then (a.get? j).map renumber else a.get? j := by
  have hcount : b.referrers j = a.referrers j := by
    rw [referrers_eq, referrers_eq, rowa, rowb, Table.countP_insert, Table.countP_insert]
  rw [ha.get?_eq, hb.get?_eq, hcount, rowa, rowb, Table.get?_insert, Table.get?_insert]
  split <;> rfl

end Aft

namespace Rib

open Aft

variable {r s t : Rib} {c c' : Context} {o : Operation} {ni : String} {e : Entry} {k : EntryKey}

/-! ### New tables in place of new tables -/

theorem put_put (r : Rib) (ni : String) (a b : Aft) (f g : Fib) : (r.put ni a f).put ni b g = r.put ni b g := by
  simp only [put, setAft, ForwardingPlane.setFib, Table.insert_insert]

theorem get?_put (r : Rib) (ni : String) (a : Aft) (f : Fib) : (r.put ni a f).instances.get? ni = some a := by
  rw [put, setAft]
  dsimp only
  rw [Table.get?_insert, if_pos rfl]

theorem fib_put (r : Rib) (ni : String) (a : Aft) (f : Fib) : (r.put ni a f).plane.fib ni = f := by
  rw [put, setAft]
  dsimp only
  rw [ForwardingPlane.fib_setFib, if_pos rfl]

theorem Coherent.of_upsert {mustExist : Bool} {result : Except Failure Unit} (hc : r.Coherent)
    (h : r.upsert c ni e mustExist = (result, s)) : s.Coherent := by
  have := ((upsert_cases hc c ni e mustExist).edit hc).coherent hc
  rwa [h] at this

theorem Coherent.of_delete {result : Except Failure Unit} (hc : r.Coherent) (h : r.delete ni k = (result, s)) :
    s.Coherent := by
  have := ((delete_cases hc ni k).edit hc).coherent hc
  rwa [h] at this

/-- An entry that passes the check is written while the hardware works. -/
theorem upsert_of_check {a : Aft} {mustExist : Bool} (hc : r.Coherent) (known : r.instances.get? ni = some a)
    (check : checkWrite a r.capacity ni e mustExist = .ok ()) (working : r.plane.failures = 0) :
    ∃ b f, r.upsert c ni e mustExist = (.ok (), r.put ni b f) ∧ b.Sound ∧
      b.installed = a.installed.insert e.key ⟨e, c.client, a.numberFor e.key, c.success⟩ ∧
      (∀ k, f.get? k = if k = e.key then some e else (r.plane.fib ni).get? k) ∧
      b.lastDeviceId = if a.contains e.key then a.lastDeviceId else a.lastDeviceId + 1 := by
  have hcases := upsert_cases hc c ni e mustExist
  generalize r.upsert c ni e mustExist = out at hcases
  cases hcases with
  | unknown unknown => rw [known] at unknown; cases unknown
  | refused known' check' =>
    rw [known] at known'
    cases known'
    rw [check] at check'
    cases check'
  | rejected known' check' failing => omega
  | @done a' b f known' check' working' sound row programmed number =>
    rw [known] at known'
    cases known'
    exact ⟨b, f, rfl, sound, row, programmed, number⟩

/-- An entry that nothing holds is deleted while the hardware works. -/
theorem delete_of_free {a : Aft} (hc : r.Coherent) (known : r.instances.get? ni = some a)
    (free : a.holders? k = some 0) (working : r.plane.failures = 0) :
    ∃ b, r.delete ni k = (.ok (), r.put ni b ((r.plane.fib ni).remove k)) ∧ b.Sound ∧
      b.installed = a.installed.erase k ∧ b.lastDeviceId = a.lastDeviceId := by
  have hcases := delete_cases hc ni k
  generalize r.delete ni k = out at hcases
  cases hcases with
  | unknown unknown => rw [known] at unknown; cases unknown
  | absent known' absent =>
    rw [known] at known'
    cases known'
    rw [holders?, absent] at free
    cases free
  | held known' held =>
    rw [known] at known'
    cases known'
    rw [free] at held
    cases held
  | rejected known' free' failing => omega
  | @done a' b known' free' working' sound row number =>
    rw [known] at known'
    cases known'
    exact ⟨b, rfl, sound, row, number⟩

/-! ### Writing twice -/

theorem checkWrite_of_contains {a : Aft} (valid : e.validate = .ok ()) (present : a.contains e.key)
    (refs : ∀ k ∈ e.references, a.contains k) (capacity : Nat) (ni : String) (mustExist : Bool) :
    checkWrite a capacity ni e mustExist = .ok () := by
  have hfind : e.references.find? (fun k => !a.contains k) = none := by simpa using refs
  rw [checkWrite, valid]
  simp only [present, hfind, Bool.not_true, Bool.and_false, Bool.false_and, Bool.false_eq_true, if_false]

/-- What was written can be written again, by the same client, and changes nothing. -/
theorem upsert_again (hc : r.Coherent) {mustExist : Bool} (h : r.upsert c ni e mustExist = (.ok (), s))
    (mustExist' : Bool) : s.upsert c ni e mustExist' = (.ok (), s) := by
  have hcases := upsert_cases hc c ni e mustExist
  have hs := hc.of_upsert h
  rw [h] at hcases
  cases hcases with
  | @done a b f known check working sound row programmed number =>
    obtain ⟨hvalid, -, -, hrefs⟩ := checkWrite_ok check
    have hget : b.installed.get? e.key = some ⟨e, c.client, a.numberFor e.key, c.success⟩ := by
      rw [row, Table.get?_insert, if_pos rfl]
    have hpresent : b.contains e.key := by rw [contains_eq_installed, Table.contains, hget]; rfl
    have hrefs' : ∀ k ∈ e.references, b.contains k := by
      intro k hk
      have := hrefs k hk
      rw [contains_eq_installed, Table.contains] at this ⊢
      rw [row, Table.get?_insert]
      split
      · rfl
      · exact this
    obtain ⟨b', f', hagain, sound', row', programmed', number'⟩ := upsert_of_check (c := c) hs (r.get?_put ni b f)
      (checkWrite_of_contains hvalid hpresent hrefs' _ ni mustExist') working
    have hsame : b' = b := by
      refine sound'.ext sound ?_ ?_
      · rw [row', numberFor_eq, hget]
        exact Table.insert_eq_self hget
      · rw [number', if_pos hpresent]
    have hfib : f' = f := by
      refine Fib.ext_get? fun k => ?_
      rw [programmed', fib_put, programmed]
      split <;> rfl
    rw [hagain, hsame, hfib, put_put]

/-! ### Writing and deleting -/

/-- An entry under a free key refers to other keys, and nothing refers to it once it is written. -/
theorem holders?_written {a b : Aft} {i : Installed Entry} (ha : a.Sound) (hb : b.Sound) (absent : a.get? e.key = none)
    (refs : ∀ k ∈ e.references, a.contains k) (row : b.installed = a.installed.insert e.key i) (own : i.entry = e) :
    b.holders? e.key = some 0 := by
  have hget := hb.get?_eq e.key
  rw [row, Table.get?_insert, if_pos rfl] at hget
  have hself : e.key ∉ e.references := fun hmem => by
    have := refs _ hmem
    rw [contains, absent] at this
    cases this
  have hcount := referrers_insert row e.key
  rw [ha.toCounted.referrers_eq_zero absent, own, List.count_eq_zero_of_not_mem hself] at hcount
  rw [holders?, hget]
  simp only [Option.map_some, Option.some.injEq]
  omega

/-- Deleting what was written under a free key leaves the tables and the hardware as they were, with a number used up. -/
theorem delete_upsert (hc : r.Coherent) {mustExist : Bool} (h : r.upsert c ni e mustExist = (.ok (), s))
    (free : r.installed? ni e.key = none) (withdrawn : r.programmed? ni e.key = none) :
    ∃ a, r.instances.get? ni = some a ∧ s.delete ni e.key = (.ok (), r.put ni a.skipNumber (r.plane.fib ni)) := by
  have hcases := upsert_cases hc c ni e mustExist
  have hs := hc.of_upsert h
  rw [h] at hcases
  cases hcases with
  | @done a b f known check working sound row programmed number =>
    obtain ⟨-, -, -, hrefs⟩ := checkWrite_ok check
    have habsent : a.installed.get? e.key = none := by
      rwa [installed?_of_get? known, Option.map_eq_none_iff] at free
    have habsent' : a.get? e.key = none := by rwa [get?_installed, Option.map_eq_none_iff] at habsent
    have hfree := holders?_written (hc.sound ni a known) sound habsent' hrefs row rfl
    obtain ⟨b', hdelete, sound', row', number'⟩ := delete_of_free hs (r.get?_put ni b f) hfree working
    have hback : b' = a.skipNumber := by
      refine sound'.ext ((hc.sound ni a known).withLast _) ?_ ?_
      · rw [row', row, Table.erase_insert habsent]
        rfl
      · rw [number', number, contains, habsent']
        rfl
    have hfib : f.remove e.key = r.plane.fib ni := by
      refine Fib.ext_get? fun k => ?_
      rw [Fib.get?_remove, programmed]
      split
      case isTrue hk => rw [hk]; exact withdrawn.symm
      case isFalse => rfl
    refine ⟨a, known, ?_⟩
    rw [hdelete, fib_put, hfib, hback, put_put]

/-- Writing again what was written and deleted gives the same entry with the next number. -/
theorem upsert_skipNumber {a : Aft} (hc : r.Coherent) (h : r.upsert c ni e false = (.ok (), s))
    (free : r.installed? ni e.key = none) (known : r.instances.get? ni = some a)
    (hc' : (r.put ni a.skipNumber (r.plane.fib ni)).Coherent) :
    ∃ b b' f, s = r.put ni b f ∧
      (r.put ni a.skipNumber (r.plane.fib ni)).upsert c ni e false = (.ok (), r.put ni b' f) ∧
      b'.lastDeviceId = b.lastDeviceId + 1 ∧
      ∀ k, b'.get? k = if k = e.key then (b.get? k).map renumber else b.get? k := by
  have hcases := upsert_cases hc c ni e false
  rw [h] at hcases
  cases hcases with
  | @done a₀ b f known₀ check working sound row programmed number =>
    rw [known] at known₀
    cases known₀
    have habsent : a.installed.get? e.key = none := by
      rwa [installed?_of_get? known, Option.map_eq_none_iff] at free
    have hcontains : a.contains e.key = false := by rw [contains_eq_installed, Table.contains, habsent]; rfl
    rw [numberFor_eq, habsent] at row
    rw [hcontains] at number
    obtain ⟨b', f', hagain, sound', row', programmed', number'⟩ :=
      upsert_of_check (c := c) hc' (r.get?_put ni a.skipNumber (r.plane.fib ni)) check working
    have hsame : a.skipNumber.installed = a.installed := rfl
    have hcontains' : a.skipNumber.contains e.key = false := hcontains
    rw [numberFor_eq, hsame, habsent] at row'
    rw [hcontains'] at number'
    have hfib : f' = f := by
      refine Fib.ext_get? fun k => ?_
      rw [programmed', programmed, fib_put]
    refine ⟨b, b', f, rfl, ?_, ?_, sound.get?_renumbered sound' row row'⟩
    · rw [hagain, hfib, put_put]
    · rw [number', number]
      rfl

/-! ### The statistics take no part -/

theorem upsert_count (r : Rib) (result : Except Failure Outcome) (c : Context) (ni : String) (e : Entry)
    (mustExist : Bool) : (r.count result).upsert c ni e mustExist =
      ((r.upsert c ni e mustExist).1, (r.upsert c ni e mustExist).2.count result) := by
  simp only [upsert, count]
  split
  · rfl
  · split
    · rfl
    · split <;> cases result <;> rfl

theorem delete_count (r : Rib) (result : Except Failure Outcome) (ni : String) (k : EntryKey) :
    (r.count result).delete ni k = ((r.delete ni k).1, (r.delete ni k).2.count result) := by
  simp only [delete, count]
  split
  · rfl
  · split
    · rfl
    · rfl
    · split <;> cases result <;> rfl

/-- The ids that a client has used do not matter to a write. -/
theorem upsert_used (r : Rib) (c : Context) (o : Operation) (ni : String) (e : Entry) (mustExist : Bool) :
    r.upsert (used c o) ni e mustExist = r.upsert c ni e mustExist := rfl

/-! ### Batches of one operation -/

/-- The batch of one operation has the outcome of success, which is one that says installed; then come the context and
the RIB after it. -/
structure Carries (r : Rib) (c : Context) (o : Operation) (c' : Context) (s : Rib) : Prop where
  outcome : r.applyBatch c [o] = ([acknowledge o (.ok c.success)], c', s)
  installed : (acknowledge o (.ok c.success)).outcome.isInstalled

theorem applyBatch_single (r : Rib) (c : Context) (o : Operation) : r.applyBatch c [o] =
    ([acknowledge o (r.apply c o).1], (r.apply c o).2.1, (r.apply c o).2.2.count (r.apply c o).1) := rfl

theorem acknowledge_error_ne (o : Operation) (f : Failure) (c : Context) :
    acknowledge o (.error f) ≠ acknowledge o (.ok c.success) := by
  intro h
  have hfailed : Outcome.failed = c.success := congrArg (·.outcome) h
  have hinstalled := isInstalled_success c
  rw [← hfailed] at hinstalled
  contradiction

/-- Of the two, the outcome of the batch is what has to be shown. -/
theorem carries_iff_outcome : r.Carries c o c' s ↔ r.applyBatch c [o] = ([acknowledge o (.ok c.success)], c', s) :=
  ⟨Carries.outcome, fun h => ⟨h, isInstalled_success c⟩⟩

theorem carries_iff : r.Carries c o c' s ↔ ¬(o.id = 0 ∨ o.id ≤ c.lastOperationId) ∧ c' = used c o ∧
    ∃ t, r.perform (used c o) o = (.ok (), t) ∧ s = t.count (.ok c.success) := by
  rw [carries_iff_outcome, applyBatch_single]
  by_cases stale : o.id = 0 ∨ o.id ≤ c.lastOperationId
  · rw [apply_of_stale stale]
    exact ⟨fun h => absurd (List.cons.inj (congrArg Prod.fst h)).1 (acknowledge_error_ne o _ c),
      fun h => absurd stale h.1⟩
  · rw [apply_of_fresh stale]
    generalize r.perform (used c o) o = out
    obtain ⟨f | u, t⟩ := out
    · refine ⟨fun h => absurd (List.cons.inj (congrArg Prod.fst h)).1 (acknowledge_error_ne o f c), fun h => ?_⟩
      obtain ⟨-, -, t', ht, -⟩ := h
      cases ht
    · constructor
      · intro h
        have hafter := congrArg Prod.snd h
        exact ⟨stale, (congrArg Prod.fst hafter).symm, t, rfl, (congrArg Prod.snd hafter).symm⟩
      · rintro ⟨-, rfl, t', ht, rfl⟩
        cases ht
        rfl

theorem perform_add (add : o.op = .add) : r.perform c o = (.ok (), s) ↔
    c.checkElection o = .ok () ∧ r.upsert c o.networkInstance o.entry false = (.ok (), s) := by
  rw [perform, add]
  cases c.checkElection o <;> simp

theorem perform_delete (delete : o.op = .delete) : r.perform c o = (.ok (), s) ↔
    c.checkElection o = .ok () ∧ r.delete o.networkInstance o.key = (.ok (), s) := by
  rw [perform, delete]
  cases c.checkElection o <;> simp

theorem Carries.coherent (h : r.Carries c o c' s) (hc : r.Coherent) : s.Coherent := by
  have hs := (applyBatch_edit hc c [o]).coherent hc
  rwa [h.outcome] at hs

/-- Everything that the tables have under a key: the entry with its owner, number and outcome, and the count of its holders. -/
def held? (r : Rib) (ni : String) (k : EntryKey) : Option InstalledEntry := (r.instances.get? ni).bind (·.get? k)

theorem held?_put (r : Rib) (ni : String) (a : Aft) (f : Fib) (ni' : String) (k : EntryKey) :
    (r.put ni a f).held? ni' k = if ni' = ni then a.get? k else r.held? ni' k := by
  rw [held?, put, setAft]
  dsimp only
  rw [Table.get?_insert]
  split <;> rfl

theorem last?_put (r : Rib) (ni : String) (a : Aft) (f : Fib) (ni' : String) :
    (r.put ni a f).last? ni' = if ni' = ni then some a.lastDeviceId else r.last? ni' := last?_setAft ..

/-- The tables and the hardware of `r` again, with a number of `ni` used up. -/
structure Restored (r t : Rib) (ni : String) : Prop where
  tables : ∀ ni' k, t.held? ni' k = r.held? ni' k
  numbers : ∀ ni', t.last? ni' = if ni' = ni then (r.last? ni').map (· + 1) else r.last? ni'
  hardware : ∀ ni', t.plane.fib ni' = r.plane.fib ni'
  interfaces : t.plane.interfaces = r.plane.interfaces

/-- The tables and the hardware of `s`, but for the number of one entry, which is the next one. -/
structure Renewed (s u : Rib) (ni : String) (k : EntryKey) : Prop where
  tables : ∀ ni' k', u.held? ni' k' = if ni' = ni ∧ k' = k then (s.held? ni' k').map renumber else s.held? ni' k'
  numbers : ∀ ni', u.last? ni' = if ni' = ni then (s.last? ni').map (· + 1) else s.last? ni'
  plane : u.plane = s.plane

theorem restored_put {a : Aft} (known : r.instances.get? ni = some a) :
    Restored r (r.put ni a.skipNumber (r.plane.fib ni)) ni := by
  refine ⟨fun ni' k => ?_, fun ni' => ?_, fun ni' => ?_, rfl⟩
  · rw [held?_put]
    split
    case isTrue hni => rw [hni, held?, known]; rfl
    case isFalse => rfl
  · rw [last?_put]
    split
    case isTrue hni => rw [hni, last?, known]; rfl
    case isFalse => rfl
  · refine (ForwardingPlane.fib_setFib ..).trans ?_
    split
    case isTrue hni => rw [hni]
    case isFalse => rfl

theorem renewed_put (r : Rib) (ni : String) {b b' : Aft} (f : Fib) (last : b'.lastDeviceId = b.lastDeviceId + 1)
    (rows : ∀ j, b'.get? j = if j = k then (b.get? j).map renumber else b.get? j) :
    Renewed (r.put ni b f) (r.put ni b' f) ni k := by
  refine ⟨fun ni' k' => ?_, fun ni' => ?_, rfl⟩
  · rw [held?_put, held?_put, rows]
    by_cases hni : ni' = ni
    · simp only [hni, if_true, true_and]
    · simp only [hni, if_false, false_and]
  · rw [last?_put, last?_put, last]
    by_cases hni : ni' = ni
    · simp only [hni, if_true, Option.map_some]
    · simp only [hni, if_false]

/-- `d` is a later operation of the client on the same network instance, let through by the election. -/
structure Follows (c : Context) (o d : Operation) : Prop where
  later : o.id < d.id
  place : d.networkInstance = o.networkInstance
  admitted : d.electionId = o.electionId ∨ c.checkElection d = .ok ()

theorem Follows.fresh {d : Operation} (h : Follows c o d) :
    ¬(d.id = 0 ∨ d.id ≤ (used c o).lastOperationId) := by
  have hlater := UInt64.lt_iff_toNat_lt.1 h.later
  rw [used, UInt64.le_iff_toNat_le, ← UInt64.toNat_inj, UInt64.toNat_zero]
  dsimp only
  omega

theorem Follows.elected {d : Operation} (h : Follows c o d) (elected : c.checkElection o = .ok ()) :
    c.checkElection d = .ok () := by
  rcases h.admitted with same | admitted
  · rwa [Context.checkElection, Context.effectiveId, same]
  · exact admitted

/-! ### Adds and deletes of one client -/

/-- The same add again is carried out and leaves everything but the statistics as it is. -/
theorem Carries.again {o' : Operation} (hc : r.Coherent) (add : o.op = .add) (h : r.Carries c o c' s)
    (add' : o'.op = .add) (entry : o'.entry = o.entry) (follows : Follows c o o') :
    s.Carries c' o' (used c o') (s.count (.ok c.success)) := by
  obtain ⟨-, rfl, s₀, hperform, rfl⟩ := carries_iff.1 h
  obtain ⟨elected, hupsert⟩ := (perform_add add).1 hperform
  rw [upsert_used] at hupsert
  refine carries_iff.2 ⟨follows.fresh, rfl, _, (perform_add add').2 ⟨follows.elected elected, ?_⟩, rfl⟩
  rw [upsert_used, upsert_used, upsert_count, follows.place, entry, upsert_again hc hupsert false]

/-- A delete of what was added under a free key is carried out, and so is adding it once more after that. -/
theorem Carries.deleted {d : Operation} (hm : r.Mirrored) (add : o.op = .add) (h : r.Carries c o c' s)
    (free : r.installed? o.networkInstance o.key = none) (delete : d.op = .delete) (key : d.key = o.key)
    (follows : Follows c o d) : ∃ t, s.Carries c' d (used c d) t ∧ Restored r t o.networkInstance ∧
      ∀ o', o'.op = .add → o'.entry = o.entry → Follows c d o' →
        ∃ u, t.Carries (used c d) o' (used c o') u ∧ Renewed s u o.networkInstance o.key := by
  have hs := h.coherent hm.coherent
  obtain ⟨-, rfl, s₀, hperform, rfl⟩ := carries_iff.1 h
  obtain ⟨elected, hupsert⟩ := (perform_add add).1 hperform
  rw [upsert_used] at hupsert
  obtain ⟨a, known, hdelete⟩ := delete_upsert hm.coherent hupsert free ((hm.same _ _).trans free)
  have hkey : d.key = o.entry.key := key
  have hdeleted : (s₀.count (.ok c.success)).delete d.networkInstance d.key = (.ok (),
      (r.put o.networkInstance a.skipNumber (r.plane.fib o.networkInstance)).count (.ok c.success)) := by
    rw [delete_count, follows.place, hkey, hdelete]
  have hrestored := restored_put known
  -- the statistics, which the batches have counted up, take no part in what is restored
  refine ⟨_, carries_iff.2 ⟨follows.fresh, rfl, _, (perform_delete delete).2 ⟨follows.elected elected, hdeleted⟩, rfl⟩,
    ⟨hrestored.tables, hrestored.numbers, hrestored.hardware, hrestored.interfaces⟩, fun o' add' entry follows' => ?_⟩
  have ht := hs.of_delete hdeleted
  obtain ⟨b, b', f, rfl, hagain, last, rows⟩ :=
    upsert_skipNumber hm.coherent hupsert free known ⟨ht.sound, ht.bounded, ht.backed⟩
  have hplace : o'.networkInstance = o.networkInstance := follows'.place.trans follows.place
  have hadded : (((r.put o.networkInstance a.skipNumber (r.plane.fib o.networkInstance)).count (.ok c.success)).count
      (.ok c.success)).upsert (used c o') o'.networkInstance o'.entry false = (.ok (),
        ((r.put o.networkInstance b' f).count (.ok c.success)).count (.ok c.success)) := by
    rw [upsert_used, upsert_count, upsert_count, hplace, entry, hagain]
  have hrenewed := renewed_put r o.networkInstance f last rows
  exact ⟨_, carries_iff.2 ⟨follows'.fresh, rfl, _, (perform_add add').2
    ⟨follows'.elected (follows.elected elected), hadded⟩, rfl⟩, ⟨hrenewed.tables, hrenewed.numbers, hrenewed.plane⟩⟩

end Rib

namespace History

open Rib

theorem mirrored {h : History} (quiet : h.Quiet) : h.rib.Mirrored := (mirrored_create ..).run quiet

/-- An add that is carried out, in a history without injected failures. If its key was free, a delete of the key by the same
client is carried out too and leaves the tables and the hardware as they were; and adding the entry once more is carried out and
gives the state after the first add, but for the number of the entry. Free or not, the same add again is carried out and changes
nothing. -/
theorem add_undone_redone_repeated {h : History} (quiet : h.Quiet) {c c₁ : Context} {o : Operation} {s : Rib}
    (add : o.op = .add) (carried : h.rib.Carries c o c₁ s) :
    (h.rib.installed? o.networkInstance o.key = none → ∀ d, d.op = .delete → d.key = o.key → Follows c o d →
      ∃ c₂ t, s.Carries c₁ d c₂ t ∧ Restored h.rib t o.networkInstance ∧
        ∀ o', o'.op = .add → o'.entry = o.entry → Follows c d o' →
          ∃ c₃ u, t.Carries c₂ o' c₃ u ∧ Renewed s u o.networkInstance o.key) ∧
    (∀ o', o'.op = .add → o'.entry = o.entry → Follows c o o' →
      ∃ c₂ t, s.Carries c₁ o' c₂ t ∧ t.instances = s.instances ∧ t.plane = s.plane) := by
  have hm := mirrored quiet
  refine ⟨fun free d delete key follows => ?_, fun o' add' entry follows => ?_⟩
  · obtain ⟨t, hdeleted, hrestored, hredo⟩ := carried.deleted hm add free delete key follows
    refine ⟨_, t, hdeleted, hrestored, fun o' add' entry follows' => ?_⟩
    obtain ⟨u, hredone, hrenewed⟩ := hredo o' add' entry follows'
    exact ⟨_, u, hredone, hrenewed⟩
  · exact ⟨_, _, carried.again hm.coherent add add' entry follows, rfl, rfl⟩

/-- An operation on a group that refers to the next-hop of `oneRoute`. -/
def second (id : UInt64) (op : OperationType) : Operation :=
  { id, networkInstance := "DEFAULT", op, entry := .nextHopGroup { id := 11, members := Table.ofList [(42, 7)] } }

theorem add_undone_redone_repeated_second : (oneRoute []).Quiet ∧ ∃ c₁ s,
    (oneRoute []).rib.Carries { client := 1, lastOperationId := 3 } (second 4 .add) c₁ s ∧
    (oneRoute []).rib.installed? "DEFAULT" (.nextHopGroup 11) = none ∧
    Follows { client := 1, lastOperationId := 3 } (second 4 .add) (second 5 .delete) ∧
    (∃ c₂ t, s.Carries c₁ (second 5 .delete) c₂ t ∧ Restored (oneRoute []).rib t "DEFAULT" ∧
      ∃ c₃ u, t.Carries c₂ (second 6 .add) c₃ u ∧ Renewed s u "DEFAULT" (.nextHopGroup 11)) ∧
    ∃ c₂ t, s.Carries c₁ (second 5 .add) c₂ t ∧ t.instances = s.instances ∧ t.plane = s.plane := by
  have quiet : (oneRoute []).Quiet := by simp [Quiet, oneRoute]
  have carried : (oneRoute []).rib.Carries { client := 1, lastOperationId := 3 } (second 4 .add) _ _ := ⟨rfl, rfl⟩
  have free : (oneRoute []).rib.installed? "DEFAULT" (.nextHopGroup 11) = none := by decide +kernel
  have follows (id : UInt64) (op : OperationType) (hid : 4 < id) :
      Follows { client := 1, lastOperationId := 3 } (second 4 .add) (second id op) := ⟨hid, rfl, .inl rfl⟩
  have follows' : Follows { client := 1, lastOperationId := 3 } (second 5 .delete) (second 6 .add) :=
    ⟨by decide, rfl, .inl rfl⟩
  obtain ⟨hundo, hrepeat⟩ := add_undone_redone_repeated quiet rfl carried
  obtain ⟨c₂, t, hdeleted, hrestored, hredo⟩ := hundo free (second 5 .delete) rfl rfl (follows 5 .delete (by decide))
  exact ⟨quiet, _, _, carried, free, follows 5 .delete (by decide),
    ⟨c₂, t, hdeleted, hrestored, hredo (second 6 .add) rfl rfl follows'⟩,
    hrepeat (second 5 .add) rfl rfl (follows 5 .add (by decide))⟩

end History

end RouteProgramming
