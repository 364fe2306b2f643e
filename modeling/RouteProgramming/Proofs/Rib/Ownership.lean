import RouteProgramming.Proofs.Rib.History

/-! Owners of rows. A batch leaves a row as it is, removes it, or gives it to its
client. A bulk removal of one owner's entries, or of all, changes no row; it
removes exactly the selected entries that nothing left in place refers to. What
is left in place is reached by references from an entry that was not selected:
directly, or through entries that are left in place themselves. Whether anything
refers to a row is told by its count, which fits 32 bits with a capacity below
2 ^ 32 - 1 (`Coherent.holders?_le`). -/

namespace RouteProgramming

namespace Aft

variable {a : Aft} {k : EntryKey} {owner : Option ClientId}

theorem referrers_pos_iff : 0 < a.referrers k ↔
    ∃ j i, a.installed.get? j = some i ∧ k ∈ i.entry.references := by
  rw [referrers_eq, List.countP_pos_iff]
  constructor
  · rintro ⟨⟨j, i⟩, hr, hk⟩
    exact ⟨j, i, Table.get?_eq_some_iff.2 hr, of_decide_eq_true hk⟩
  · rintro ⟨j, i, hj, hk⟩
    exact ⟨(j, i), Table.get?_eq_some_iff.1 hj, decide_eq_true hk⟩

/-! ### Selection by owner -/

/-- The row belongs to the given client; without a client every row is selected. -/
def Selected {ε : Type} (owner : Option ClientId) (i : Installed ε) : Prop := ∀ c ∈ owner, i.owner = c

theorem mem_ownedKeys {κ ε : Type} [Ord κ] [Std.LawfulEqOrd κ] {t : HeldTable κ (Installed ε)} {j : κ} :
    j ∈ ownedKeys t owner ↔ ∃ h, t.get? j = some h ∧ Selected owner h.value := by
  have hall (h : Held (Installed ε)) : owner.all (· == h.value.owner) = true ↔ Selected owner h.value := by
    cases owner with
    | none => simp [Selected]
    | some c => simpa [Selected] using eq_comm
  simp only [ownedKeys, Table.keys, Table.filter, List.mem_map, List.mem_filter, hall,
    Table.get?_eq_some_iff]
  constructor
  · rintro ⟨⟨j, h⟩, hr, rfl⟩
    exact ⟨h, hr⟩
  · rintro ⟨h, hr⟩
    exact ⟨(j, h), hr, rfl⟩

theorem selected_view_iff {ε : Type} {f : ε → Entry} {h? : Option (Held (Installed ε))} :
    (∃ h, h? = some h ∧ Selected owner h.value) ↔
      ∃ i, (h?.map (view f)).map (·.value) = some i ∧ Selected owner i := by
  cases h? with
  | none => simp
  | some h => simp [Selected, view, Installed.map]

theorem mem_keysOf {kind : EntryKind} :
    k ∈ a.keysOf kind owner ↔ k.kind = kind ∧ ∃ i, a.installed.get? k = some i ∧ Selected owner i := by
  rw [get?_installed]
  cases kind <;> cases k <;>
    simp only [keysOf, List.mem_map, EntryKey.kind, get?, ← selected_view_iff, mem_ownedKeys] <;> simp

/-! ### Kinds of references -/

/-- An entry refers to keys of another kind than its own. -/
theorem kind_ne_of_mem_references {e : Entry} {k : EntryKey} (hk : k ∈ e.references) :
    k.kind ≠ e.kind := by
  cases e with
  | nextHop e => exact absurd hk List.not_mem_nil
  | nextHopGroup e => obtain ⟨i, -, rfl⟩ := List.mem_map.1 hk; nofun
  | ipv4 e => obtain rfl := List.mem_singleton.1 hk; nofun

end Aft

namespace Rib

open Aft

variable {r s : Rib} {ni ni' : String} {j k k' : EntryKey} {i : Installed Entry} {owner : Option ClientId}

/-! ### Rows -/

/-- The row of a key in a network instance, without the count of its holders. -/
def row? (r : Rib) (ni : String) (k : EntryKey) : Option (Installed Entry) :=
  (r.instances.get? ni).bind (·.installed.get? k)

theorem row?_of_get? {a : Aft} (known : r.instances.get? ni = some a) (k : EntryKey) :
    r.row? ni k = a.installed.get? k := by
  rw [row?, known, Option.bind_some]

theorem installed?_eq_row? (r : Rib) (ni : String) (k : EntryKey) :
    r.installed? ni k = (r.row? ni k).map (·.entry) := by
  cases known : r.instances.get? ni with
  | none => rw [installed?, row?, known]; rfl
  | some a => rw [installed?_of_get? known, row?_of_get? known]

theorem mem_networkInstances_of_row (hi : r.row? ni k = some i) : ni ∈ r.networkInstances := by
  obtain ⟨a, known, -⟩ := Option.bind_eq_some_iff.1 hi
  exact Table.mem_keys_iff.2 (Table.contains_iff.2 ⟨a, known⟩)

theorem row?_setAft (r : Rib) (ni : String) (a : Aft) (ni' : String) (k : EntryKey) :
    (r.setAft ni a).row? ni' k = if ni' = ni then a.installed.get? k else r.row? ni' k := by
  rw [row?, setAft]
  dsimp only
  rw [Table.get?_insert]
  split <;> rfl

theorem row?_create (names : List String) (capacity : Nat) (ni : String) (k : EntryKey) :
    (create names capacity).row? ni k = none := by
  have hnone := installed?_create names capacity ni k
  rwa [installed?_eq_row?, Option.map_eq_none_iff] at hnone

theorem Coherent.row_key (hc : r.Coherent) (hi : r.row? ni k = some i) : i.entry.key = k := by
  obtain ⟨a, known, hrow⟩ := Option.bind_eq_some_iff.1 hi
  exact ((hc.sound ni a known).installed_stored hrow).1

/-- Some entry of the network instance refers to the key. -/
def InUse (r : Rib) (ni : String) (k : EntryKey) : Prop :=
  ∃ j i, r.row? ni j = some i ∧ k ∈ i.entry.references

theorem inUse_iff {a : Aft} {n : Nat} (hc : r.Coherent) (known : r.instances.get? ni = some a)
    (hn : a.holders? k = some n) : r.InUse ni k ↔ 0 < n := by
  rw [(hc.sound ni a known).holders?_eq hn, referrers_pos_iff]
  simp only [InUse, row?_of_get? known]

/-- Nothing refers to an entry but entries of another kind. -/
theorem Coherent.kind_ne (hc : r.Coherent) (hi : r.row? ni j = some i) (hk : k ∈ i.entry.references) :
    k.kind ≠ j.kind := by
  rw [← hc.row_key hi]
  exact kind_ne_of_mem_references hk

/-! ### Removing one entry -/

theorem row?_erase {a b : Aft} (known : r.instances.get? ni = some a) (row : b.installed = a.installed.erase k) :
    (r.setAft ni b).row? ni' k' = some i ↔ r.row? ni' k' = some i ∧ ¬(ni' = ni ∧ k' = k) := by
  rw [row?_setAft]
  split
  case isTrue hni =>
    subst hni
    rw [row, Table.get?_erase, row?_of_get? known]
    split <;> simp [*]
  case isFalse hni => simp [hni]

theorem row?_discard_iff (hc : r.Coherent) : (r.discard ni k).2.row? ni' k' = some i ↔
    r.row? ni' k' = some i ∧ (ni' = ni → k' = k → r.InUse ni k) := by
  have hcases := discard_cases hc ni k
  generalize r.discard ni k = out at hcases
  have gone {a : Aft} {t : Rib} (known : r.instances.get? ni = some a) (free : a.holders? k = some 0)
      (hrow : t.row? ni' k' = some i ↔ r.row? ni' k' = some i ∧ ¬(ni' = ni ∧ k' = k)) :
      t.row? ni' k' = some i ↔ r.row? ni' k' = some i ∧ (ni' = ni → k' = k → r.InUse ni k) := by
    rw [hrow, inUse_iff hc known free]
    simp
  cases hcases with
  | absent absent =>
    refine (and_iff_left_of_imp fun hi hni hk => ?_).symm
    rw [installed?_eq_row?, Option.map_eq_none_iff] at absent
    rw [hni, hk, absent] at hi
    contradiction
  | held known held => exact (and_iff_left_of_imp fun _ _ _ => (inUse_iff hc known held).2 (Nat.succ_pos _)).symm
  | dropped known free failing sound row => exact gone known free (row?_erase (r := r.refuse) known row)
  | done known free working sound row => exact gone known free (row?_erase known row)

/-! ### Bulk removals -/

/-- Removing entries of one kind does not take away what refers to another one of that kind. -/
theorem inUse_discard_iff (hc : r.Coherent) (hkind : k'.kind = k.kind) :
    (r.discard ni k).2.InUse ni k' ↔ r.InUse ni k' := by
  refine exists_congr fun j => exists_congr fun i => ?_
  rw [row?_discard_iff hc]
  refine ⟨fun h => ⟨h.1.1, h.2⟩, fun h => ⟨⟨h.1, fun _ hj => ?_⟩, h.2⟩⟩
  exact absurd (hj ▸ hkind) (hc.kind_ne h.1 h.2)

theorem row?_discardAll_iff {kind : EntryKind} {ks : List EntryKey} (hc : r.Coherent)
    (hks : ∀ k ∈ ks, k.kind = kind) : (r.discardAll ni ks).2.row? ni' k' = some i ↔
      r.row? ni' k' = some i ∧ (ni' = ni → k' ∈ ks → r.InUse ni k') := by
  induction ks generalizing r with
  | nil => simp [discardAll]
  | cons k ks ih =>
    have hc' := (discard_clearing hc ni k).coherent hc
    refine (ih hc' fun k hk => hks k (.tail _ hk)).trans ?_
    rw [row?_discard_iff hc, and_assoc]
    refine and_congr_right fun _ => ?_
    rw [← forall_and]
    refine forall_congr' fun _ => ?_
    have huse (hmem : k' ∈ ks) : (r.discard ni k).2.InUse ni k' ↔ r.InUse ni k' :=
      inUse_discard_iff hc ((hks k' (.tail _ hmem)).trans (hks k (.head _)).symm)
    rw [List.mem_cons]
    refine ⟨fun h hmem => ?_, fun h => ⟨fun hk => hk ▸ h (.inl hk), fun hmem => (huse hmem).2 (h (.inr hmem))⟩⟩
    rcases hmem with hk | hmem
    · exact hk ▸ h.1 hk
    · exact (huse hmem).1 (h.2 hmem)

theorem row?_removeKind_iff {kind : EntryKind} (hc : r.Coherent) :
    (r.removeKind ni owner kind).2.row? ni' k' = some i ↔
      r.row? ni' k' = some i ∧ (ni' = ni → k'.kind = kind → Selected owner i → r.InUse ni k') := by
  rw [removeKind]
  split
  case h_1 unknown =>
    refine (and_iff_left_of_imp fun hi hni => ?_).symm
    rw [hni, row?, unknown] at hi
    contradiction
  case h_2 a known =>
    rw [row?_discardAll_iff hc fun k hk => (mem_keysOf.1 hk).1]
    refine and_congr_right fun hi => forall_congr' fun hni => ?_
    rw [hni, row?_of_get? known] at hi
    simp only [mem_keysOf, hi, Option.some.injEq, exists_eq_left']
    exact and_imp

/-- Left in place when the entries of an owner, or all, are removed: an entry that was not selected refers to
the key, or one that is left in place itself. -/
inductive Retained (r : Rib) (owner : Option ClientId) (ni : String) : EntryKey → Prop
  | spared {j k : EntryKey} {i : Installed Entry} (row : r.row? ni j = some i) (other : ¬Selected owner i)
    (refers : k ∈ i.entry.references) : Retained r owner ni k
  | chained {j k : EntryKey} {i : Installed Entry} (row : r.row? ni j = some i) (kept : Retained r owner ni j)
    (refers : k ∈ i.entry.references) : Retained r owner ni k

/-- Before the entries of a kind are removed, those that can refer to them are already as they stay. -/
theorem inUse_iff_retained (hrow : ∀ j i, s.row? ni j = some i → r.row? ni j = some i)
    (hreferrers : ∀ j i, r.row? ni j = some i → k ∈ i.entry.references →
      (s.row? ni j = some i ↔ (Selected owner i → r.Retained owner ni j))) :
    s.InUse ni k ↔ r.Retained owner ni k := by
  constructor
  · rintro ⟨j, i, hj, hk⟩
    have hi := hrow j i hj
    by_cases hsel : Selected owner i
    · exact .chained hi ((hreferrers j i hi hk).1 hj hsel) hk
    · exact .spared hi hsel hk
  · rintro (⟨row, other, refers⟩ | ⟨row, kept, refers⟩)
    · exact ⟨_, _, (hreferrers _ _ row refers).2 fun hsel => absurd hsel other, refers⟩
    · exact ⟨_, _, (hreferrers _ _ row refers).2 fun _ => kept, refers⟩

/-- The rows of the given kinds are as the bulk removal leaves them, all others as before it. -/
def Swept (r s : Rib) (owner : Option ClientId) (ni : String) (kinds : List EntryKind) : Prop :=
  ∀ ni' k i, s.row? ni' k = some i ↔
    r.row? ni' k = some i ∧ (ni' = ni → k.kind ∈ kinds → Selected owner i → r.Retained owner ni k)

/-- The kinds go one after the other, each after all kinds that can refer to it. -/
theorem Swept.removeKind {kind : EntryKind} {kinds : List EntryKind} (hs : s.Coherent)
    (h : Swept r s owner ni kinds)
    (hreferrers : ∀ j k i, r.row? ni j = some i → k ∈ i.entry.references → k.kind = kind → j.kind ∈ kinds) :
    Swept r (s.removeKind ni owner kind).2 owner ni (kind :: kinds) := by
  intro ni' k i
  have huse (hk : k.kind = kind) : s.InUse ni k ↔ r.Retained owner ni k := by
    refine inUse_iff_retained (fun j i hj => ((h ni j i).1 hj).1) fun j i hj href => ?_
    have hmem := hreferrers j k i hj href hk
    simp [h ni j i, hj, hmem]
  rw [row?_removeKind_iff hs, h, and_assoc]
  refine and_congr_right fun _ => ?_
  rw [← forall_and]
  refine forall_congr' fun _ => ?_
  simp only [List.mem_cons]
  constructor
  · rintro ⟨hbefore, hnow⟩ (hk | hmem) hsel
    · exact (huse hk).1 (hnow hk hsel)
    · exact hbefore hmem hsel
  · exact fun hall => ⟨fun hmem => hall (.inr hmem), fun hk hsel => (huse hk).2 (hall (.inl hk) hsel)⟩

theorem row?_removeWhere_iff (hc : r.Coherent) : (r.removeWhere ni owner).2.row? ni' k = some i ↔
    r.row? ni' k = some i ∧ (ni' = ni → Selected owner i → r.Retained owner ni k) := by
  have hkind {j k i} (hj : r.row? ni j = some i) (hk : k ∈ i.entry.references) : j.kind = k.referrerKind := by
    rw [← hc.row_key hj]
    exact Entry.kind_of_mem_references hk
  have hc₁ := (removeKind_clearing hc ni owner .ipv4).coherent hc
  have hc₂ := (removeKind_clearing hc₁ ni owner .nextHopGroup).coherent hc₁
  have h₀ : Swept r r owner ni [] := fun ni' k i => by simp
  have h₁ : Swept r (r.removeKind ni owner .ipv4).2 owner ni [.ipv4] :=
    h₀.removeKind hc fun j k i hj hk hipv4 => by
      cases k with
      | ipv4 p => exact absurd hk (i.entry.ipv4_notMem_references p)
      | nextHop | nextHopGroup => contradiction
  have h₂ := h₁.removeKind hc₁ fun j k i hj hk (hgroup : k.kind = .nextHopGroup) => by
    rw [hkind hj hk]
    cases k with
    | nextHopGroup => exact .head _
    | nextHop | ipv4 => contradiction
  have h₃ := h₂.removeKind hc₂ fun j k i hj hk (hnextHop : k.kind = .nextHop) => by
    rw [hkind hj hk]
    cases k with
    | nextHop => exact .head _
    | nextHopGroup | ipv4 => contradiction
  have hall : k.kind ∈ [EntryKind.nextHop, .nextHopGroup, .ipv4] := by cases k <;> simp [EntryKey.kind]
  exact (h₃ ni' k i).trans (and_congr_right fun _ => forall_congr' fun _ => forall_prop_of_true hall)

/-- When everything is selected, nothing is left in place. -/
theorem not_retained_none : ¬ r.Retained none ni k := by
  intro h
  induction h with
  | spared row other refers => exact other nofun
  | chained row kept refers ih => exact ih

theorem row?_flushAll_iff {nis : List String} (hc : r.Coherent) : (r.flushAll nis).2.row? ni k = some i ↔
    r.row? ni k = some i ∧ ni ∉ nis := by
  induction nis generalizing r with
  | nil => simp [flushAll]
  | cons first rest ih =>
    refine (ih ((removeWhere_clearing hc first none).coherent hc)).trans ?_
    have hall : Selected none i := nofun
    rw [row?_removeWhere_iff hc, and_assoc, List.mem_cons, not_or]
    refine and_congr_right fun _ => and_congr_left fun _ => forall_congr' fun _ => ?_
    exact iff_of_false (fun h => not_retained_none (h hall)) id

/-! ### The entries of one owner -/

/-- What is left in place depends on one network instance only. -/
theorem Retained.congr (h : r.Retained owner ni k) (hrow : ∀ j, s.row? ni j = r.row? ni j) :
    s.Retained owner ni k := by
  induction h with
  | spared row other refers => exact .spared ((hrow _).trans row) other refers
  | chained row _ refers ih => exact .chained ((hrow _).trans row) ih refers

theorem row?_removeOwnedIn_iff {c : ClientId} {nis : List String} (hc : r.Coherent) (hnodup : nis.Nodup) :
    (r.removeOwnedIn c nis).2.row? ni k = some i ↔
      r.row? ni k = some i ∧ (ni ∈ nis → i.owner = c → r.Retained (some c) ni k) := by
  induction nis generalizing r with
  | nil => simp [removeOwnedIn]
  | cons first rest ih =>
    obtain ⟨hfirst, hrest⟩ := List.nodup_cons.1 hnodup
    have hsel : Selected (some c) i ↔ i.owner = c := by simp [Selected]
    refine (ih ((removeWhere_clearing hc first (some c)).coherent hc) hrest).trans ?_
    rw [row?_removeWhere_iff hc, and_assoc, hsel, List.mem_cons]
    refine and_congr_right fun _ => ?_
    by_cases hni : ni = first
    · subst hni
      simp [hfirst]
    · have hsame (j) : (r.removeWhere first (some c)).2.row? ni j = r.row? ni j :=
        Option.ext fun i => (row?_removeWhere_iff hc).trans (by simp [hni])
      have hretained : (r.removeWhere first (some c)).2.Retained (some c) ni k ↔ r.Retained (some c) ni k :=
        ⟨fun h => h.congr fun j => (hsame j).symm, fun h => h.congr hsame⟩
      simp [hni, hretained]

/-- An entry that belongs to a client outlives the removal of what the client owns exactly if it is left in place. -/
theorem row?_removeOwnedBy_iff {c : ClientId} (hc : r.Coherent) : (r.removeOwnedBy c).2.row? ni k = some i ↔
    r.row? ni k = some i ∧ (i.owner = c → r.Retained (some c) ni k) := by
  refine (row?_removeOwnedIn_iff hc r.instances.keys_nodup).trans (and_congr_right fun hi => ?_)
  exact forall_prop_of_true (mem_networkInstances_of_row hi)

theorem not_retained_ipv4 {p : Cidr} : ¬r.Retained owner ni (.ipv4 p) := by
  intro h
  cases h with
  | spared row other refers | chained row kept refers => exact (Entry.ipv4_notMem_references _ p) refers

/-! ### Batches -/

variable {c : Context} {o : Operation}

theorem Upserted.row_or_owner {e : Entry} {mustExist : Bool} {out : Except Failure Unit × Rib}
    (h : Upserted r c ni e mustExist out) (hi : out.2.row? ni' k = some i) :
    r.row? ni' k = some i ∨ i.owner = c.client := by
  cases h with
  | unknown | refused | rejected => exact .inl hi
  | done known check working sound row programmed =>
    refine Classical.or_iff_not_imp_left.2 fun hold => ?_
    rw [put, row?_setAft] at hi
    split at hi
    case isTrue hni =>
      subst hni
      rw [row, Table.get?_insert] at hi
      split at hi
      case isTrue => exact (congrArg (·.owner) (Option.some.inj hi)).symm
      case isFalse => exact absurd ((row?_of_get? known k).trans hi) hold
    case isFalse => exact absurd hi hold

theorem Deleted.row {out : Except Failure Unit × Rib} (h : Deleted r ni j out)
    (hi : out.2.row? ni' k = some i) : r.row? ni' k = some i := by
  cases h with
  | unknown | absent | held | rejected => exact hi
  | done known free working sound row => exact ((row?_erase (r := { r with plane := _ }) known row).1 hi).1

theorem Performed.row_or_owner {out : Except Failure Unit × Rib} (h : Performed r c o out)
    (hi : out.2.row? ni k = some i) : r.row? ni k = some i ∨ i.owner = c.client := by
  cases h with
  | barred => exact .inl hi
  | written election op upserted => exact upserted.row_or_owner hi
  | deleted election op deleted => exact .inl (deleted.row hi)

theorem apply_row_or_owner (hc : r.Coherent) (h : (r.apply c o).2.2.row? ni k = some i) :
    r.row? ni k = some i ∨ i.owner = c.client := by
  by_cases hid : o.id = 0 ∨ o.id ≤ c.lastOperationId
  · rw [apply_of_stale hid] at h
    exact .inl h
  · rw [apply_of_fresh hid] at h
    exact (perform_cases hc (used c o) o).row_or_owner h

/-- Whatever a batch writes belongs to its client. -/
theorem applyBatch_row_or_owner {os : List Operation} (hc : r.Coherent)
    (h : (r.applyBatch c os).2.2.row? ni k = some i) : r.row? ni k = some i ∨ i.owner = c.client := by
  induction os generalizing r c with
  | nil => exact .inl h
  | cons o os ih =>
    have hstep := ((apply_edit hc c o).count (r.apply c o).1).coherent hc
    rcases ih hstep h with hi | howner
    · exact apply_row_or_owner hc hi
    · obtain ⟨n, hn⟩ := r.context_apply c o
      have hclient := congrArg Context.client hn
      exact .inr (howner.trans hclient)

end Rib

end RouteProgramming
