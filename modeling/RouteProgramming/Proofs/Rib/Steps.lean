import RouteProgramming.Rib
import RouteProgramming.Proofs.Aft.Integrity
import RouteProgramming.Proofs.Forwarding.Programmed

/-! What writing, deleting and discarding one entry can do to a coherent RIB. In
a coherent RIB the tables are sound, within the capacity, and backed by the
hardware: what is installed is also programmed. Each of the three operations
has a relation that lists its outcomes, with the state after each of them, and
every later statement about single steps is a case analysis of these lists. -/

namespace RouteProgramming

/-- Not about what was asked, but about tables that disagree among themselves or with the hardware. -/
def Failure.isInternal : Failure → Bool
  | .holding _ _ => true
  | .rejected _ cause => cause != .injected
  | _ => false

namespace Rib

variable {r : Rib} {c : Context} {ni : String} {e : Entry} {k : EntryKey}

/-! ### Both sides -/

/-- The entry that the tables of a network instance have under a key. -/
def installed? (r : Rib) (ni : String) (k : EntryKey) : Option Entry :=
  (r.instances.get? ni).bind (fun a => (a.get? k).map (·.value.entry))

/-- The entry that the hardware has under a key. -/
def programmed? (r : Rib) (ni : String) (k : EntryKey) : Option Entry := (r.plane.fib ni).get? k

structure Coherent (r : Rib) : Prop where
  sound : ∀ ni a, r.instances.get? ni = some a → a.Sound
  bounded : ∀ ni a, r.instances.get? ni = some a → ∀ kind, a.sizeOf kind ≤ r.capacity
  backed : ∀ ni k e, r.installed? ni k = some e → r.programmed? ni k = some e

/-- The holders of an entry are rows of one table, so that no count passes the capacity. Where a theorem leaves the
capacity open, this is what keeps the counts within a number of bits. -/
theorem Coherent.holders?_le (hc : r.Coherent) {a : Aft} (ha : r.instances.get? ni = some a) {n : Nat}
    (hk : a.holders? k = some n) : n ≤ r.capacity := by
  have hs := hc.sound ni a ha
  rw [hs.holders?_eq hk]
  exact Nat.le_trans (hs.referrers_le_sizeOf k) (hc.bounded ni a ha _)

theorem installed?_of_get? {a : Aft} (h : r.instances.get? ni = some a) (k : EntryKey) :
    r.installed? ni k = (a.installed.get? k).map (·.entry) := by
  rw [installed?, h, Aft.get?_installed, Option.map_map]
  rfl

/-! ### States after a step -/

/-- New tables for one network instance, on both sides. -/
def put (r : Rib) (ni : String) (a : Aft) (f : Fib) : Rib :=
  { r with plane := r.plane.setFib ni f }.setAft ni a

/-- The plane has refused a call. -/
def refuse (r : Rib) : Rib :=
  { r with plane := { r.plane with failures := r.plane.failures - 1 } }.countRejection

theorem installed?_setAft (r : Rib) (ni : String) (a : Aft) (ni' : String) (k : EntryKey) :
    (r.setAft ni a).installed? ni' k =
      if ni' = ni then (a.installed.get? k).map (·.entry) else r.installed? ni' k := by
  rw [installed?, setAft]
  dsimp only
  rw [Table.get?_insert]
  split
  · rw [Aft.get?_installed, Option.map_map]; rfl
  · rfl

theorem installed?_put (r : Rib) (ni : String) (a : Aft) (f : Fib) (ni' : String) (k : EntryKey) :
    (r.put ni a f).installed? ni' k =
      if ni' = ni then (a.installed.get? k).map (·.entry) else r.installed? ni' k :=
  installed?_setAft ..

theorem programmed?_put (r : Rib) (ni : String) (a : Aft) (f : Fib) (ni' : String) (k : EntryKey) :
    (r.put ni a f).programmed? ni' k = if ni' = ni then f.get? k else r.programmed? ni' k := by
  simp only [programmed?, put, setAft, ForwardingPlane.fib_setFib]
  split <;> rfl

/-! ### What may be written -/

/-- What passes the check is a valid entry for which there is room and whose references are installed. -/
theorem checkWrite_ok {a : Aft} {capacity : Nat} {mustExist : Bool}
    (h : checkWrite a capacity ni e mustExist = .ok ()) :
    e.validate = .ok () ∧ (mustExist → a.contains e.key) ∧ (a.contains e.key ∨ a.sizeOf e.kind < capacity) ∧
      ∀ k ∈ e.references, a.contains k := by
  rw [checkWrite] at h
  split at h
  case h_1 => contradiction
  case h_2 hv =>
    split at h
    case isTrue => contradiction
    case isFalse hm =>
      split at h
      case isTrue => contradiction
      case isFalse hroom =>
        split at h
        case h_1 => contradiction
        case h_2 hfind =>
          refine ⟨hv, ?_, ?_, fun k hk => ?_⟩
          · simpa using hm
          · exact Decidable.or_iff_not_imp_left.2 (by simpa using hroom)
          · simpa using List.find?_eq_none.1 hfind k hk

theorem checkWrite_external {a : Aft} {capacity : Nat} {mustExist : Bool} {f : Failure}
    (h : checkWrite a capacity ni e mustExist = .error f) : f.isInternal = false := by
  rw [checkWrite] at h
  split at h
  · cases h; rfl
  · split at h
    · cases h; rfl
    · split at h
      · cases h; rfl
      · split at h
        · cases h; rfl
        · contradiction

/-! ### Writing -/

inductive Upserted (r : Rib) (c : Context) (ni : String) (e : Entry) (mustExist : Bool) :
    Except Failure Unit × Rib → Prop
  | unknown (unknown : r.instances.get? ni = none) :
    Upserted r c ni e mustExist (.error (.unknownNetworkInstance ni), r)
  | refused {a : Aft} {cause : Failure} (known : r.instances.get? ni = some a)
    (check : checkWrite a r.capacity ni e mustExist = .error cause) :
    Upserted r c ni e mustExist (.error cause, r)
  | rejected {a : Aft} (known : r.instances.get? ni = some a)
    (check : checkWrite a r.capacity ni e mustExist = .ok ()) (failing : 0 < r.plane.failures) :
    Upserted r c ni e mustExist (.error (.rejected e.key .injected), r.refuse)
  | done {a b : Aft} {f : Fib} (known : r.instances.get? ni = some a)
    (check : checkWrite a r.capacity ni e mustExist = .ok ()) (working : r.plane.failures = 0)
    (sound : b.Sound)
    (row : b.installed = a.installed.insert e.key ⟨e, c.client, a.numberFor e.key, c.success⟩)
    (programmed : ∀ k, f.get? k = if k = e.key then some e else (r.plane.fib ni).get? k)
    (number : b.lastDeviceId = if a.contains e.key then a.lastDeviceId else a.lastDeviceId + 1) :
    Upserted r c ni e mustExist (.ok (), r.put ni b f)

theorem upsert_cases (hc : r.Coherent) (c : Context) (ni : String) (e : Entry) (mustExist : Bool) :
    Upserted r c ni e mustExist (r.upsert c ni e mustExist) := by
  rw [upsert]
  split
  case h_1 h => exact .unknown h
  case h_2 a known =>
    split
    case h_1 f check => exact .refused known check
    case h_2 check =>
      obtain ⟨hvalid, -, -, hrefs⟩ := checkWrite_ok check
      rcases Nat.eq_zero_or_pos r.plane.failures with working | failing
      · have hbacked : ∀ k ∈ e.references, ((r.plane.fib ni).get? k).isSome := by
          intro k hk
          obtain ⟨h, hget⟩ := Aft.contains_iff.1 (hrefs k hk)
          have := hc.backed ni k h.value.entry (by rw [installed?, known]; simp [hget])
          rw [programmed?] at this
          rw [this]
          rfl
        obtain ⟨f, hprogram, hf⟩ := Fib.program_ok hbacked
        obtain ⟨b, hinstall, sound, row, number⟩ :=
          (hc.sound ni a known).install hvalid hrefs c.client c.success
        rw [ForwardingPlane.program_of_working working hprogram, hinstall]
        exact .done known check working sound row hf number
      · rw [ForwardingPlane.program_of_failing failing]
        exact .rejected known check failing

/-! ### Deleting -/

inductive Deleted (r : Rib) (ni : String) (k : EntryKey) : Except Failure Unit × Rib → Prop
  | unknown (unknown : r.instances.get? ni = none) : Deleted r ni k (.error (.unknownNetworkInstance ni), r)
  | absent {a : Aft} (known : r.instances.get? ni = some a) (absent : a.get? k = none) :
    Deleted r ni k (.error (.notFound k), r)
  | held {a : Aft} {n : Nat} (known : r.instances.get? ni = some a) (held : a.holders? k = some (n + 1)) :
    Deleted r ni k (.error (.stillReferenced k (n + 1)), r)
  | rejected {a : Aft} (known : r.instances.get? ni = some a) (free : a.holders? k = some 0)
    (failing : 0 < r.plane.failures) : Deleted r ni k (.error (.rejected k .injected), r.refuse)
  | done {a b : Aft} (known : r.instances.get? ni = some a) (free : a.holders? k = some 0)
    (working : r.plane.failures = 0) (sound : b.Sound) (row : b.installed = a.installed.erase k)
    (number : b.lastDeviceId = a.lastDeviceId) :
    Deleted r ni k (.ok (), r.put ni b ((r.plane.fib ni).remove k))

theorem delete_cases (hc : r.Coherent) (ni : String) (k : EntryKey) : Deleted r ni k (r.delete ni k) := by
  rw [delete]
  split
  case h_1 h => exact .unknown h
  case h_2 a known =>
    split
    case h_1 h => exact .absent known (Option.map_eq_none_iff.1 h)
    case h_2 n h => exact .held known h
    case h_3 free =>
      rcases Nat.eq_zero_or_pos r.plane.failures with working | failing
      · obtain ⟨old, b, hremove, sound, row, number⟩ := (hc.sound ni a known).remove free
        rw [ForwardingPlane.remove_of_working working, hremove]
        exact .done known free working sound row number
      · rw [ForwardingPlane.remove_of_failing failing]
        exact .rejected known free failing

/-! ### Discarding -/

inductive Discarded (r : Rib) (ni : String) (k : EntryKey) : Removal × Rib → Prop
  | absent (absent : r.installed? ni k = none) : Discarded r ni k ({}, r)
  | held {a : Aft} {n : Nat} (known : r.instances.get? ni = some a) (held : a.holders? k = some (n + 1)) :
    Discarded r ni k (⟨0, 1⟩, r)
  | dropped {a b : Aft} (known : r.instances.get? ni = some a) (free : a.holders? k = some 0)
    (failing : 0 < r.plane.failures) (sound : b.Sound) (row : b.installed = a.installed.erase k)
    (number : b.lastDeviceId = a.lastDeviceId) :
    Discarded r ni k (⟨1, 0⟩, r.refuse.setAft ni b)
  | done {a b : Aft} (known : r.instances.get? ni = some a) (free : a.holders? k = some 0)
    (working : r.plane.failures = 0) (sound : b.Sound) (row : b.installed = a.installed.erase k)
    (number : b.lastDeviceId = a.lastDeviceId) :
    Discarded r ni k (⟨1, 0⟩, r.put ni b ((r.plane.fib ni).remove k))

theorem setAft_eq_self {a : Aft} (h : r.instances.get? ni = some a) : r.setAft ni a = r := by
  rw [setAft, Table.insert_eq_self h]

theorem discard_cases (hc : r.Coherent) (ni : String) (k : EntryKey) :
    Discarded r ni k (r.discard ni k) := by
  have hdel := delete_cases hc ni k
  rw [discard]
  generalize r.delete ni k = out at hdel
  cases hdel with
  | unknown unknown =>
    dsimp only
    rw [unknown]
    exact .absent (by rw [installed?, unknown]; rfl)
  | absent known absent =>
    dsimp only
    rw [known]
    dsimp only
    rw [Aft.remove_of_get?_none absent]
    dsimp only
    rw [setAft_eq_self known]
    exact .absent (by rw [installed?, known]; simp [absent])
  | held known held => exact .held known held
  | rejected known free failing =>
    obtain ⟨old, b, hremove, sound, row, number⟩ := (hc.sound ni _ known).remove free
    have hknown : r.refuse.instances.get? ni = some _ := known
    dsimp only
    rw [hknown]
    dsimp only
    rw [hremove]
    exact .dropped known free failing sound row number
  | done known free working sound row number => exact .done known free working sound row number

/-! ### Operations -/

variable {o : Operation}

/-- The context after an operation whose id is in order. -/
def used (c : Context) (o : Operation) : Context := { c with lastOperationId := o.id }

theorem apply_of_stale (h : o.id = 0 ∨ o.id ≤ c.lastOperationId) :
    r.apply c o = (.error (.staleId o.id c.lastOperationId), c, r) := by
  rw [apply, Context.checkId, if_pos h]

theorem apply_of_fresh (h : ¬(o.id = 0 ∨ o.id ≤ c.lastOperationId)) :
    r.apply c o =
      ((r.perform (used c o) o).1.map (fun _ => c.success), used c o, (r.perform (used c o) o).2) := by
  rw [apply, Context.checkId, if_neg h]
  rfl

/-- Of the context, an operation changes nothing but the last operation id. -/
theorem context_apply (r : Rib) (c : Context) (o : Operation) :
    ∃ n, (r.apply c o).2.1 = { c with lastOperationId := n } := by
  by_cases hid : o.id = 0 ∨ o.id ≤ c.lastOperationId
  · rw [apply_of_stale hid]
    exact ⟨_, rfl⟩
  · rw [apply_of_fresh hid]
    exact ⟨_, rfl⟩

inductive Performed (r : Rib) (c : Context) (o : Operation) : Except Failure Unit × Rib → Prop
  | barred {f : Failure} (election : c.checkElection o = .error f) : Performed r c o (.error f, r)
  | written {out : Except Failure Unit × Rib} (election : c.checkElection o = .ok ()) (op : o.op ≠ .delete)
    (upserted : Upserted r c o.networkInstance o.entry (o.op = .replace) out) : Performed r c o out
  | deleted {out : Except Failure Unit × Rib} (election : c.checkElection o = .ok ()) (op : o.op = .delete)
    (deleted : Deleted r o.networkInstance o.key out) : Performed r c o out

theorem perform_cases (hc : r.Coherent) (c : Context) (o : Operation) :
    Performed r c o (r.perform c o) := by
  rw [perform]
  split
  case h_1 h => exact .barred h
  case h_2 election =>
    split
    case h_1 op => exact .written election (by simp [op]) (by simpa [op] using upsert_cases hc ..)
    case h_2 op => exact .written election (by simp [op]) (by simpa [op] using upsert_cases hc ..)
    case h_3 op => exact .deleted election op (delete_cases hc ..)

/-! ### Failures -/

theorem checkElection_external {f : Failure} (h : c.checkElection o = .error f) : f.isInternal = false := by
  rw [Context.checkElection] at h
  split at h
  · split at h <;> cases h
    rfl
  · split at h
    · cases h; rfl
    · contradiction
    · split at h <;> cases h
      rfl

theorem Performed.external {f : Failure} {s : Rib} (h : Performed r c o (.error f, s)) :
    f.isInternal = false := by
  cases h with
  | barred election => exact checkElection_external election
  | written election op upserted =>
    cases upserted with
    | refused known check => exact checkWrite_external check
    | unknown | rejected => rfl
  | deleted election op deleted => cases deleted <;> rfl

/-- In a coherent RIB an operation fails only for what was asked or for a failure of the hardware. -/
theorem apply_external {f : Failure} (hc : r.Coherent) (h : (r.apply c o).1 = .error f) :
    f.isInternal = false := by
  by_cases hid : o.id = 0 ∨ o.id ≤ c.lastOperationId
  · rw [apply_of_stale hid] at h
    cases h
    rfl
  · rw [apply_of_fresh hid] at h
    have hperform := perform_cases hc (used c o) o
    generalize r.perform (used c o) o = out at h hperform
    rcases out with ⟨f' | _, s⟩
    · obtain rfl := Except.error.inj h
      exact hperform.external
    · contradiction

end Rib

end RouteProgramming
