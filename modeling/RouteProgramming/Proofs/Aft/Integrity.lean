import RouteProgramming.Parameters
import RouteProgramming.Proofs.Aft.Contents

/-! Referential integrity of one network instance. In sound tables every entry
is well formed and stored under its own key, refers only to installed keys, and
every row counts exactly the installed entries that refer to it. Installing an
entry whose references exist and removing an entry that nothing refers to never
fail, change one row apart from the counts, and leave the tables sound. The
counts may as well be higher by what no entry accounts for; that excess stays. -/

namespace RouteProgramming

namespace Entry

theorem references_nodup (e : Entry) : e.references.Nodup := by
  cases e with
  | nextHop e => exact .nil
  | nextHopGroup e =>
    refine List.pairwise_map.2 (List.pairwise_map.2 (e.members.increasing.imp fun {r s} h he => ?_))
    rw [EntryKey.nextHop.inj he, Std.ReflOrd.compare_self] at h
    contradiction
  | ipv4 e => exact List.pairwise_singleton _ _

theorem ipv4_notMem_references (e : Entry) (p : Cidr) : .ipv4 p ∉ e.references := by
  cases e <;> simp [references]

theorem count_references_le (e : Entry) (k : EntryKey) : e.references.count k ≤ 1 :=
  List.nodup_iff_count.1 e.references_nodup k

end Entry

namespace Aft

variable {a b : Aft} {k : EntryKey} {h : InstalledEntry}

/-- How many installed entries refer to a key. -/
def referrers (a : Aft) (k : EntryKey) : Nat :=
  a.entries.countP (fun h => decide (k ∈ h.value.entry.references))

structure Sound (a : Aft) : Prop where
  stored : ∀ k h, a.get? k = some h → h.value.entry.key = k ∧ h.value.entry.validate = .ok ()
  closed : ∀ k h, a.get? k = some h → ∀ r ∈ h.value.entry.references, a.contains r
  counted : ∀ k h, a.get? k = some h → h.holders = a.referrers k

theorem contains_iff : a.contains k ↔ ∃ h, a.get? k = some h := Option.isSome_iff_exists

/-! ### The rows without their counts -/

/-- The installed entries without the counts of their holders. -/
def installed (a : Aft) : Table EntryKey (Installed Entry) := a.table.mapValues (·.value)

theorem get?_installed (a : Aft) (k : EntryKey) : a.installed.get? k = (a.get? k).map (·.value) := by
  rw [installed, Table.get?_mapValues, get?_table]

theorem referrers_eq (a : Aft) (k : EntryKey) :
    a.referrers k = a.installed.rows.countP (fun r => decide (k ∈ r.2.entry.references)) := by
  rw [referrers, entries_eq, installed, Table.countP_mapValues, Table.values, List.countP_map]
  rfl

theorem sizeOf_eq_installed (a : Aft) (kind : EntryKind) :
    a.sizeOf kind = a.installed.rows.countP (fun r => decide (r.1.kind = kind)) := by
  rw [sizeOf_eq, installed, Table.countP_mapValues]

/-- What the entry under a key, if any, refers to. -/
def referencesOf (a : Aft) (k : EntryKey) : List EntryKey :=
  ((a.get? k).map (·.value.entry.references)).getD []

theorem count_eq_ite (e : Entry) (k : EntryKey) :
    (if decide (k ∈ e.references) then 1 else 0) = e.references.count k := by
  have hle := e.count_references_le k
  by_cases hk : k ∈ e.references
  · have := List.count_pos_iff.2 hk
    simp only [hk, decide_true, if_true]
    omega
  · simp only [hk, decide_false, Bool.false_eq_true, if_false, List.count_eq_zero_of_not_mem hk]

/-- The referrers of `k` are those among the other entries and, if it refers to `k`, the entry under `j`. -/
theorem referrers_split (a : Aft) (j k : EntryKey) :
    a.referrers k = (a.installed.erase j).rows.countP (fun r => decide (k ∈ r.2.entry.references)) +
      (a.referencesOf j).count k := by
  rw [referrers_eq, referencesOf]
  have hj := a.get?_installed j
  cases hi : a.get? j with
  | none =>
    rw [hi] at hj
    rw [Table.countP_of_get?_none hj]
    rfl
  | some h =>
    rw [hi] at hj
    rw [Table.countP_of_get? hj, count_eq_ite]
    rfl

theorem referrers_insert {j : EntryKey} {i : Installed Entry} (hb : b.installed = a.installed.insert j i)
    (k : EntryKey) :
    b.referrers k + (a.referencesOf j).count k = a.referrers k + i.entry.references.count k := by
  rw [referrers_split a j, referrers_eq, hb, Table.countP_insert, count_eq_ite]
  dsimp only
  omega

theorem referrers_erase {j : EntryKey} (hb : b.installed = a.installed.erase j) (k : EntryKey) :
    b.referrers k + (a.referencesOf j).count k = a.referrers k := by
  rw [referrers_split a j, referrers_eq, hb]

/-! ### Runs of holding and releasing -/

theorem holdAll_ok {ks : List EntryKey} (hks : ∀ k ∈ ks, a.contains k) :
    ∃ b, a.holdAll ks = (.ok (), b) ∧ b.lastDeviceId = a.lastDeviceId ∧
      ∀ k, b.get? k = (a.get? k).map (fun h => ⟨h.value, h.holders + ks.count k⟩) := by
  induction ks generalizing a with
  | nil =>
    refine ⟨a, rfl, rfl, fun k => ?_⟩
    cases a.get? k <;> rfl
  | cons j ks ih =>
    obtain ⟨h, hj⟩ := contains_iff.1 (hks j List.mem_cons_self)
    obtain ⟨a', hhold, hlast, hget⟩ := hold_of_get? hj
    have hks' : ∀ k ∈ ks, a'.contains k := by
      intro k hk
      obtain ⟨h', hk'⟩ := contains_iff.1 (hks k (List.mem_cons_of_mem _ hk))
      rw [contains, hget]
      split
      · rfl
      · rw [hk']; rfl
    obtain ⟨b, hrun, hlast', hget'⟩ := ih hks'
    refine ⟨b, by rw [holdAll, forEach, hhold]; exact hrun, hlast'.trans hlast, fun k => ?_⟩
    rw [hget', hget, List.count_cons]
    by_cases hk : k = j
    · subst hk
      simp only [if_true, hj, Option.map_some, beq_self_eq_true]
      congr 2
      omega
    · simp only [hk, if_false, beq_iff_eq, Ne.symm hk, Nat.add_zero]

theorem releaseAll_ok {ks : List EntryKey}
    (hks : ∀ k ∈ ks, ∃ h, a.get? k = some h ∧ ks.count k ≤ h.holders) :
    ∃ b, a.releaseAll ks = (.ok (), b) ∧ b.lastDeviceId = a.lastDeviceId ∧
      ∀ k, b.get? k = (a.get? k).map (fun h => ⟨h.value, h.holders - ks.count k⟩) := by
  induction ks generalizing a with
  | nil =>
    refine ⟨a, rfl, rfl, fun k => ?_⟩
    cases a.get? k <;> rfl
  | cons j ks ih =>
    obtain ⟨h, hj, hle⟩ := hks j List.mem_cons_self
    rw [List.count_cons_self] at hle
    obtain ⟨n, hn⟩ : ∃ n, h.holders = n + 1 := ⟨h.holders - 1, by omega⟩
    obtain ⟨a', hrel, hlast, hget⟩ := release_of_get? hj hn
    have hks' : ∀ k ∈ ks, ∃ h, a'.get? k = some h ∧ ks.count k ≤ h.holders := by
      intro k hk
      obtain ⟨h', hk', hle'⟩ := hks k (List.mem_cons_of_mem _ hk)
      rw [hget]
      by_cases hkj : k = j
      · subst hkj
        exact ⟨⟨h.value, n⟩, if_pos rfl, by dsimp only; omega⟩
      · rw [List.count_cons_of_ne (Ne.symm hkj)] at hle'
        exact ⟨h', by rw [if_neg hkj, hk'], hle'⟩
    obtain ⟨b, hrun, hlast', hget'⟩ := ih hks'
    refine ⟨b, by rw [releaseAll, forEach, hrel]; exact hrun, hlast'.trans hlast, fun k => ?_⟩
    rw [hget', hget, List.count_cons]
    by_cases hk : k = j
    · subst hk
      simp only [if_true, hj, Option.map_some, beq_self_eq_true]
      congr 2
      omega
    · simp only [hk, if_false, beq_iff_eq, Ne.symm hk, Nat.add_zero]

/-! ### Rows and references -/

theorem mem_entries (h : InstalledEntry) : h ∈ a.entries ↔ ∃ k, a.get? k = some h := by
  rw [entries_eq, Table.values, List.mem_map]
  constructor
  · rintro ⟨r, hr, rfl⟩
    exact ⟨r.1, by rw [← get?_table]; exact Table.get?_eq_some_iff.2 hr⟩
  · rintro ⟨k, hk⟩
    rw [← get?_table] at hk
    exact ⟨(k, h), Table.get?_eq_some_iff.1 hk, rfl⟩

theorem contains_eq_installed (a : Aft) (k : EntryKey) : a.contains k = a.installed.contains k := by
  rw [contains, Table.contains, get?_installed, Option.isSome_map]

theorem count_referencesOf_le (a : Aft) (j k : EntryKey) : (a.referencesOf j).count k ≤ a.referrers k := by
  rw [referrers_split a j k]
  omega

theorem notMem_referencesOf (hfree : a.referrers k = 0) {j : EntryKey} : k ∉ a.referencesOf j := by
  intro hmem
  have := a.count_referencesOf_le j k
  have := List.count_pos_iff.2 hmem
  omega

theorem contains_of_holders? {n : Nat} (hk : a.holders? k = some n) : a.contains k := by
  obtain ⟨h, hget, -⟩ := Option.map_eq_some_iff.1 hk
  exact contains_iff.2 ⟨h, hget⟩

theorem referencesOf_eq (hk : a.get? k = some h) : a.referencesOf k = h.value.entry.references := by
  rw [referencesOf, hk]; rfl

/-! ### Counted tables -/

/-- Every entry stands under its own key and refers to installed keys only, and every row counts the entries that
refer to it and `extra` holders besides. -/
structure Counted (a : Aft) (extra : EntryKey → Nat) : Prop where
  keyed : ∀ k h, a.get? k = some h → h.value.entry.key = k
  closed : ∀ k h, a.get? k = some h → ∀ r ∈ h.value.entry.references, a.contains r
  counted : ∀ k h, a.get? k = some h → h.holders = a.referrers k + extra k
  kept : ∀ k, a.get? k = none → extra k = 0

variable {extra : EntryKey → Nat}

theorem Sound.toCounted (hs : a.Sound) : a.Counted (fun _ => 0) :=
  ⟨fun k h hk => (hs.stored k h hk).1, hs.closed, hs.counted, fun _ _ => rfl⟩

/-- Sound tables are counted tables of valid entries without holders besides. -/
theorem Counted.sound (hc : a.Counted (fun _ => 0))
    (valid : ∀ k i, a.installed.get? k = some i → i.entry.validate = .ok ()) : a.Sound := by
  refine ⟨fun k h hk => ⟨hc.keyed k h hk, valid k h.value ?_⟩, hc.closed, hc.counted⟩
  rw [get?_installed, hk]
  rfl

namespace Counted

/-- Nothing refers to a key that is not installed. -/
theorem referrers_eq_zero (hc : a.Counted extra) (hk : a.get? k = none) : a.referrers k = 0 := by
  refine List.countP_eq_zero.2 fun h hh => ?_
  obtain ⟨j, hj⟩ := (mem_entries h).1 hh
  rw [decide_eq_true_eq]
  intro hmem
  obtain ⟨h', hk'⟩ := contains_iff.1 (hc.closed j h hj k hmem)
  rw [hk] at hk'
  contradiction

/-- Every reference of an installed entry is to a row that counts it. -/
theorem row_of_reference (hc : a.Counted extra) {j : EntryKey} (hk : k ∈ a.referencesOf j) :
    ∃ h, a.get? k = some h ∧ h.holders = a.referrers k + extra k := by
  cases hj : a.get? j with
  | none => rw [referencesOf, hj] at hk; exact absurd hk List.not_mem_nil
  | some h =>
    rw [referencesOf_eq hj] at hk
    obtain ⟨h', hk'⟩ := contains_iff.1 (hc.closed j h hj k hk)
    exact ⟨h', hk', hc.counted k h' hk'⟩

/-- Counting speaks of the entries, and of the counts only through the number of referrers. -/
theorem of_installed {t : Table EntryKey (Installed Entry)} (hb : b.installed = t)
    (keyed : ∀ k i, t.get? k = some i → i.entry.key = k)
    (closed : ∀ k i, t.get? k = some i → ∀ r ∈ i.entry.references, t.contains r)
    (counted : ∀ k h, b.get? k = some h → h.holders = b.referrers k + extra k)
    (kept : ∀ k, t.get? k = none → extra k = 0) : b.Counted extra := by
  have hrow (k : EntryKey) : t.get? k = (b.get? k).map (·.value) := by rw [← hb, get?_installed]
  refine ⟨fun k h hk => keyed k h.value ?_, fun k h hk r hr => ?_, counted, fun k hk => kept k ?_⟩
  · rw [hrow, hk]; rfl
  · rw [contains_eq_installed, hb]
    refine closed k h.value ?_ r hr
    rw [hrow, hk]; rfl
  · rw [hrow, hk]; rfl

theorem installed_keyed (hc : a.Counted extra) {i : Installed Entry} (hi : a.installed.get? k = some i) :
    i.entry.key = k := by
  rw [get?_installed] at hi
  obtain ⟨h, hk, rfl⟩ := Option.map_eq_some_iff.1 hi
  exact hc.keyed k h hk

theorem installed_closed (hc : a.Counted extra) {i : Installed Entry} (hi : a.installed.get? k = some i)
    {r : EntryKey} (hr : r ∈ i.entry.references) : a.installed.contains r := by
  rw [get?_installed] at hi
  obtain ⟨h, hk, rfl⟩ := Option.map_eq_some_iff.1 hi
  rw [← contains_eq_installed]
  exact hc.closed k h hk r hr

theorem installed_kept (hc : a.Counted extra) (hk : a.installed.get? k = none) : extra k = 0 := by
  rw [get?_installed, Option.map_eq_none_iff] at hk
  exact hc.kept k hk

theorem insert {i : Installed Entry} (hc : a.Counted extra) (hb : b.installed = a.installed.insert k i)
    (hi : i.entry.key = k) (hr : ∀ r ∈ i.entry.references, a.contains r)
    (counted : ∀ k h, b.get? k = some h → h.holders = b.referrers k + extra k) : b.Counted extra := by
  refine of_installed hb (fun k' j hj => ?_) (fun k' j hj r hmem => ?_) counted fun k' hk' => ?_
  · rw [Table.get?_insert] at hj
    split at hj
    case isTrue hk => cases hj; exact hi.trans hk.symm
    case isFalse => exact hc.installed_keyed hj
  · have hcontains : a.installed.contains r := by
      rw [Table.get?_insert] at hj
      split at hj
      case isTrue => cases hj; rw [← contains_eq_installed]; exact hr r hmem
      case isFalse => exact hc.installed_closed hj hmem
    rw [Table.contains, Table.get?_insert]
    split
    · rfl
    · exact hcontains
  · rw [Table.get?_insert] at hk'
    split at hk'
    · contradiction
    · exact hc.installed_kept hk'

/-- Without referrers and holders besides, an entry can go. -/
theorem erase (hc : a.Counted extra) (hb : b.installed = a.installed.erase k) (hfree : a.referrers k = 0)
    (hnone : extra k = 0) (counted : ∀ k h, b.get? k = some h → h.holders = b.referrers k + extra k) :
    b.Counted extra := by
  refine of_installed hb (fun j i hi => ?_) (fun j i hi r hr => ?_) counted fun j hj => ?_
  · rw [Table.get?_erase] at hi
    split at hi
    · contradiction
    · exact hc.installed_keyed hi
  · rw [Table.get?_erase] at hi
    split at hi
    · contradiction
    · have hmem : r ∈ a.referencesOf j := by
        rw [get?_installed] at hi
        obtain ⟨h, hj, rfl⟩ := Option.map_eq_some_iff.1 hi
        rwa [referencesOf_eq hj]
      rw [Table.contains, Table.get?_erase, if_neg (fun he => notMem_referencesOf hfree (he ▸ hmem))]
      exact hc.installed_closed hi hr
  · rw [Table.get?_erase] at hj
    split at hj
    case isTrue hk => rw [hk, hnone]
    case isFalse => exact hc.installed_kept hj

end Counted

/-! ### Installing -/

theorem install_of_holdAll {e : Entry} (hold : a.holdAll e.references = (.ok (), b)) (owner : ClientId)
    (outcome : Outcome) :
    a.install e owner outcome = (b.write e owner outcome).2.releaseAll (b.referencesOf e.key) := by
  have hold' : b.referencesOf e.key = ((b.write e owner outcome).1.map Entry.references).getD [] := by
    rw [write_fst, Option.map_map]; rfl
  rw [install, hold, hold']
  dsimp only
  rcases b.write e owner outcome with ⟨_ | old, c⟩ <;> rfl

/-- The tables with the new references held and the entry written, before the old references are released. -/
theorem get?_written {e : Entry} (hc : a.Counted extra) (hr : ∀ k ∈ e.references, a.contains k)
    (hget : ∀ k, b.get? k = (a.get? k).map (fun h => ⟨h.value, h.holders + e.references.count k⟩))
    (hlast : b.lastDeviceId = a.lastDeviceId) (owner : ClientId) (outcome : Outcome) (k : EntryKey) :
    (b.write e owner outcome).2.get? k =
      ((a.installed.insert e.key ⟨e, owner, a.numberFor e.key, outcome⟩).get? k).map
        (fun i => ⟨i, a.referrers k + extra k + e.references.count k⟩) := by
  have hrow (k : EntryKey) :
      b.get? k = (a.installed.get? k).map (fun i => ⟨i, a.referrers k + extra k + e.references.count k⟩) := by
    rw [hget, get?_installed]
    cases hk : a.get? k with
    | none => rfl
    | some h => rw [Option.map_some, hc.counted k h hk]; rfl
  have hnumber : b.numberFor e.key = a.numberFor e.key := by
    rw [numberFor, numberFor, hget, hlast, Option.map_map]; rfl
  have hholders : (b.holders? e.key).getD 0 = a.referrers e.key + extra e.key + e.references.count e.key := by
    rw [holders?, hget]
    cases hk : a.get? e.key with
    | some h => rw [← hc.counted _ h hk]; rfl
    | none =>
      have hnot : e.key ∉ e.references := fun hm => by
        have := hr _ hm
        rw [contains, hk] at this
        contradiction
      rw [hc.referrers_eq_zero hk, hc.kept _ hk, List.count_eq_zero_of_not_mem hnot]
      rfl
  rw [get?_write, hnumber, hholders, Table.get?_insert]
  split
  case isTrue hk => rw [hk]; rfl
  case isFalse hk => exact hrow k

/-- An entry whose references exist is installed, and the tables stay counted. -/
theorem Counted.install {e : Entry} (hc : a.Counted extra) (hr : ∀ k ∈ e.references, a.contains k) (owner : ClientId)
    (outcome : Outcome) :
    ∃ b, a.install e owner outcome = (.ok (), b) ∧ b.Counted extra ∧
      b.installed = a.installed.insert e.key ⟨e, owner, a.numberFor e.key, outcome⟩ ∧
      b.lastDeviceId = if a.contains e.key then a.lastDeviceId else a.lastDeviceId + 1 := by
  obtain ⟨a₁, hhold, hlast, hget⟩ := holdAll_ok hr
  have hget₂ := get?_written hc hr hget hlast owner outcome
  have hold : a₁.referencesOf e.key = a.referencesOf e.key := by
    rw [referencesOf, referencesOf, hget, Option.map_map]; rfl
  rw [install_of_holdAll hhold, hold]
  have hrel : ∀ k ∈ a.referencesOf e.key, ∃ h, (a₁.write e owner outcome).2.get? k = some h ∧
      (a.referencesOf e.key).count k ≤ h.holders := by
    intro k hk
    have hle := a.count_referencesOf_le e.key k
    obtain ⟨h, hk, -⟩ := hc.row_of_reference hk
    rw [hget₂, Table.get?_insert, get?_installed, hk]
    split
    · exact ⟨_, rfl, by dsimp only; omega⟩
    · exact ⟨_, rfl, by dsimp only; omega⟩
  obtain ⟨b, hrun, hlastb, hgetb⟩ := releaseAll_ok hrel
  have hnumber : b.lastDeviceId = if a.contains e.key then a.lastDeviceId else a.lastDeviceId + 1 := by
    rw [hlastb, lastDeviceId_write, hlast, contains, hget, Option.isSome_map, contains]
  have hb : b.installed = a.installed.insert e.key ⟨e, owner, a.numberFor e.key, outcome⟩ := by
    refine Table.ext_get? fun k => ?_
    rw [get?_installed, hgetb, hget₂, Option.map_map, Option.map_map]
    exact congrFun Option.map_id _
  refine ⟨b, hrun, hc.insert hb rfl hr fun k h hk => ?_, hb, hnumber⟩
  have hcount := referrers_insert hb k
  rw [hgetb, hget₂, Option.map_map] at hk
  obtain ⟨i, -, rfl⟩ := Option.map_eq_some_iff.1 hk
  dsimp only [Function.comp] at hcount ⊢
  omega

/-! ### Removing -/

/-- An entry that nothing holds is removed, and the tables stay counted. -/
theorem Counted.remove (hc : a.Counted extra) (hk : a.holders? k = some 0) :
    ∃ old b, a.remove k = (.ok old, b) ∧ b.Counted extra ∧ b.installed = a.installed.erase k ∧
      b.lastDeviceId = a.lastDeviceId := by
  obtain ⟨⟨i, n⟩, hget, hn⟩ := Option.map_eq_some_iff.1 hk
  obtain rfl : n = 0 := hn
  have hcounted : 0 = a.referrers k + extra k := hc.counted k _ hget
  have hfree : a.referrers k = 0 := by omega
  have hnone : extra k = 0 := by omega
  obtain ⟨a₁, htake, hlast, hget₁⟩ := take_of_get? hget
  have hrefs : a.referencesOf k = i.entry.references := referencesOf_eq hget
  have hrel : ∀ r ∈ i.entry.references,
      ∃ h, a₁.get? r = some h ∧ i.entry.references.count r ≤ h.holders := by
    intro r hr
    rw [← hrefs] at hr ⊢
    obtain ⟨h, hr', hh⟩ := hc.row_of_reference hr
    have hle := a.count_referencesOf_le k r
    refine ⟨h, ?_, by omega⟩
    rw [hget₁, if_neg (fun he => notMem_referencesOf hfree (he ▸ hr)), hr']
  obtain ⟨b, hrun, hlastb, hgetb⟩ := releaseAll_ok hrel
  have hb : b.installed = a.installed.erase k := by
    refine Table.ext_get? fun j => ?_
    rw [get?_installed, hgetb, hget₁, Table.get?_erase, get?_installed]
    split
    · rfl
    · rw [Option.map_map]; rfl
  have hremove : a.remove k = (.ok i.entry, b) := by
    rw [Aft.remove, htake]
    dsimp only
    rw [hrun]
  refine ⟨i.entry, b, hremove, hc.erase hb hfree hnone fun j h hj => ?_, hb, hlastb.trans hlast⟩
  have hcount := referrers_erase hb j
  rw [hgetb, hget₁] at hj
  split at hj
  · contradiction
  · obtain ⟨h', hj', rfl⟩ := Option.map_eq_some_iff.1 hj
    have := hc.counted j h' hj'
    rw [hrefs] at hcount
    dsimp only
    omega

/-! ### Sound tables -/

namespace Sound

/-- In sound tables the entries stand under their own keys. -/
theorem numbers_entries (hs : a.Sound) :
    a.entries.map (fun h => (h.value.entry.key, h.value.deviceId)) =
      a.installed.rows.map (fun r => (r.1, r.2.deviceId)) := by
  rw [entries_eq, installed, Table.values, Table.mapValues, List.map_map, List.map_map]
  refine List.map_congr_left fun row hrow => ?_
  have hget : a.get? row.1 = some row.2 := by
    rw [← get?_table]
    exact Table.get?_eq_some_iff.2 hrow
  have hkey := (hs.stored row.1 row.2 hget).1
  simp only [Function.comp_apply, hkey]

theorem keys_entries (hs : a.Sound) : a.entries.map (·.value.entry.key) = a.installed.keys := by
  have hfirst := congrArg (List.map (·.1)) hs.numbers_entries
  simpa only [List.map_map, Table.keys, Function.comp_def] using hfirst

theorem installed_stored (hs : a.Sound) {i : Installed Entry} (hi : a.installed.get? k = some i) :
    i.entry.key = k ∧ i.entry.validate = .ok () := by
  rw [get?_installed] at hi
  obtain ⟨h, hk, rfl⟩ := Option.map_eq_some_iff.1 hi
  exact hs.stored k h hk

end Sound

/-- A valid entry whose references exist is installed, and the tables stay sound. -/
theorem Sound.install {e : Entry} (hs : a.Sound) (he : e.validate = .ok ())
    (hr : ∀ k ∈ e.references, a.contains k) (owner : ClientId) (outcome : Outcome) :
    ∃ b, a.install e owner outcome = (.ok (), b) ∧ b.Sound ∧
      b.installed = a.installed.insert e.key ⟨e, owner, a.numberFor e.key, outcome⟩ ∧
      b.lastDeviceId = if a.contains e.key then a.lastDeviceId else a.lastDeviceId + 1 := by
  obtain ⟨b, hrun, hcounted, hb, hnumber⟩ := hs.toCounted.install hr owner outcome
  refine ⟨b, hrun, hcounted.sound fun j i hi => ?_, hb, hnumber⟩
  rw [hb, Table.get?_insert] at hi
  split at hi
  · cases hi
    exact he
  · exact (hs.installed_stored hi).2

/-- An entry that nothing refers to is removed, and the tables stay sound. -/
theorem Sound.remove (hs : a.Sound) (hk : a.holders? k = some 0) :
    ∃ old b, a.remove k = (.ok old, b) ∧ b.Sound ∧ b.installed = a.installed.erase k ∧
      b.lastDeviceId = a.lastDeviceId := by
  obtain ⟨old, b, hrun, hcounted, hb, hlast⟩ := hs.toCounted.remove hk
  refine ⟨old, b, hrun, hcounted.sound fun j i hi => ?_, hb, hlast⟩
  rw [hb, Table.get?_erase] at hi
  split at hi
  · contradiction
  · exact (hs.installed_stored hi).2

theorem remove_of_get?_none (hk : a.get? k = none) : a.remove k = (.error .absent, a) := by
  rw [Aft.remove, take_of_get?_none hk]

/-! ### Sizes -/

theorem sizeOf_insert {i : Installed Entry} (hb : b.installed = a.installed.insert k i) (kind : EntryKind) :
    b.sizeOf kind = a.sizeOf kind + if k.kind = kind ∧ ¬a.contains k then 1 else 0 := by
  rw [sizeOf_eq_installed, sizeOf_eq_installed, hb, Table.countP_insert]
  have hk := a.get?_installed k
  cases hget : a.get? k with
  | none =>
    rw [hget] at hk
    rw [← Table.countP_of_get?_none hk]
    simp [contains, hget]
  | some h =>
    rw [hget] at hk
    rw [Table.countP_of_get? hk]
    simp [contains, hget]

theorem sizeOf_erase_le (hb : b.installed = a.installed.erase k) (kind : EntryKind) :
    b.sizeOf kind ≤ a.sizeOf kind := by
  rw [sizeOf_eq_installed, sizeOf_eq_installed, hb]
  exact List.Sublist.countP_le List.filter_sublist

end Aft

/-- The kind of the entries that can refer to a key. -/
def EntryKey.referrerKind : EntryKey → EntryKind
  | .nextHop _ => .nextHopGroup
  | .nextHopGroup _ => .ipv4
  | .ipv4 _ => .ipv4

theorem Entry.kind_of_mem_references {e : Entry} {k : EntryKey} (hk : k ∈ e.references) :
    e.kind = k.referrerKind := by
  cases e with
  | nextHop e => exact absurd hk List.not_mem_nil
  | nextHopGroup e => obtain ⟨i, -, rfl⟩ := List.mem_map.1 hk; rfl
  | ipv4 e => obtain rfl := List.mem_singleton.1 hk; rfl

namespace Aft

variable {a : Aft}

/-- All referrers of a key lie in one table. -/
theorem Sound.referrers_le_sizeOf (hs : a.Sound) (k : EntryKey) :
    a.referrers k ≤ a.sizeOf k.referrerKind := by
  rw [referrers_eq, sizeOf_eq_installed]
  refine List.countP_mono_left fun r hr hk => ?_
  rw [decide_eq_true_eq] at hk ⊢
  rw [← (hs.installed_stored (Table.get?_eq_some_iff.2 hr)).1]
  exact Entry.kind_of_mem_references hk

/-! ### Counts of holders -/

theorem Sound.holders?_eq {k : EntryKey} {n : Nat} (hs : a.Sound) (hk : a.holders? k = some n) :
    n = a.referrers k := by
  obtain ⟨h, hget, rfl⟩ := Option.map_eq_some_iff.1 hk
  exact hs.counted k h hget

theorem referrers_ipv4 (a : Aft) (p : Cidr) : a.referrers (.ipv4 p) = 0 :=
  List.countP_eq_zero.2 fun h _ => by simpa using h.value.entry.ipv4_notMem_references p

/-- While a write holds its references one by one, no count passes the size of a table by more than one. -/
theorem Sound.holding_le (hs : a.Sound) {e : Entry} (hr : ∀ k ∈ e.references, a.contains k)
    {ks : List EntryKey} (hks : ks <+: e.references) : ∃ b, a.holdAll ks = (.ok (), b) ∧
      ∀ k n, b.holders? k = some n → n ≤ a.sizeOf k.referrerKind + 1 := by
  obtain ⟨b, hhold, -, hget⟩ := holdAll_ok (fun k hk => hr k (hks.subset hk))
  refine ⟨b, hhold, fun k n hn => ?_⟩
  rw [holders?, hget, Option.map_map] at hn
  obtain ⟨h, hk, rfl⟩ := Option.map_eq_some_iff.1 hn
  have hcount : ks.count k ≤ 1 := Nat.le_trans (hks.sublist.count_le k) (e.count_references_le k)
  have hholders := hs.counted k h hk
  have hsize := hs.referrers_le_sizeOf k
  dsimp only [Function.comp]
  omega

end Aft

end RouteProgramming
