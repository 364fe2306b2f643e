import RouteProgramming.Proofs.Rib.Ownership

/-! What a flush does to its network instance and to the others. Every removal
of a flush finds its key free: nothing refers to an IPv4 entry, and when the
groups go no IPv4 entry is left, and when the next-hops go no group is. So a
flush leaves nothing, whatever the hardware refuses, and counts what it removed.
No removal touches another network instance on either side. -/

namespace RouteProgramming

namespace Aft

variable {a b : Aft} {k : EntryKey}

theorem length_entries (a : Aft) : a.entries.length = a.installed.rows.length := by
  rw [entries_eq, installed, Table.values, Table.mapValues, List.length_map, List.length_map]

theorem size_eq (a : Aft) : a.size = a.entries.length := by
  simp only [size, entries, Table.size, Table.values, List.length_append, List.length_map]

/-- Taking out a row leaves one entry less. -/
theorem length_entries_erase (row : b.installed = a.installed.erase k) (hk : a.contains k) :
    b.entries.length + 1 = a.entries.length := by
  rw [contains_eq_installed] at hk
  obtain ⟨i, hi⟩ := Table.contains_iff.1 hk
  have hcount := Table.countP_of_get? hi (fun _ => true)
  simp only [List.countP_true, if_true] at hcount
  rw [length_entries, length_entries, row, hcount]

/-- Tables without a row are empty but for the number that was given out last. -/
theorem eq_of_get?_none (h : ∀ k, a.get? k = none) : a = { lastDeviceId := a.lastDeviceId } := by
  have hnextHops : a.nextHops = ∅ :=
    Table.ext_get? fun i => Option.map_eq_none_iff.1 (h (.nextHop i))
  have hgroups : a.groups = ∅ := Table.ext_get? fun i => Option.map_eq_none_iff.1 (h (.nextHopGroup i))
  have hipv4 : a.ipv4 = ∅ := Table.ext_get? fun p => Option.map_eq_none_iff.1 (h (.ipv4 p))
  cases a
  simp only at hnextHops hgroups hipv4
  rw [hnextHops, hgroups, hipv4]

end Aft

namespace Removal

@[simp] theorem removed_add (x y : Removal) : (x + y).removed = x.removed + y.removed := rfl

@[simp] theorem remaining_add (x y : Removal) : (x + y).remaining = x.remaining + y.remaining := rfl

theorem zero_add (x : Removal) : {} + x = x := by
  cases x
  simp only [HAdd.hAdd, Add.add, Removal.mk.injEq]
  exact ⟨Nat.zero_add _, Nat.zero_add _⟩

theorem add_assoc (x y z : Removal) : x + y + z = x + (y + z) := by
  simp only [HAdd.hAdd, Add.add, Removal.mk.injEq]
  exact ⟨Nat.add_assoc .., Nat.add_assoc ..⟩

end Removal

namespace Rib

open Aft

variable {r s t : Rib} {ni : String} {k : EntryKey} {owner : Option ClientId}

theorem discardAll_cons (r : Rib) (ni : String) (k : EntryKey) (ks : List EntryKey) :
    r.discardAll ni (k :: ks) = ((r.discard ni k).1 + ((r.discard ni k).2.discardAll ni ks).1,
      ((r.discard ni k).2.discardAll ni ks).2) := rfl

/-! ### What a removal leaves alone -/

/-- A removal from one network instance counts what it takes out, and leaves all other network instances as they
are on both sides. -/
structure Removes (r : Rib) (ni : String) (out : Removal × Rib) : Prop where
  tables : ∀ other, other ≠ ni → out.2.instances.get? other = r.instances.get? other
  hardware : ∀ other, other ≠ ni → out.2.plane.fib other = r.plane.fib other
  numbers : (out.2.instances.get? ni).map (·.lastDeviceId) = (r.instances.get? ni).map (·.lastDeviceId)
  counted : out.1.removed + (out.2.entries ni).length = (r.entries ni).length

theorem Removes.refl (r : Rib) (ni : String) (remaining : Nat) : Removes r ni (⟨0, remaining⟩, r) :=
  ⟨fun _ _ => rfl, fun _ _ => rfl, rfl, Nat.zero_add _⟩

theorem Removes.trans {x y : Removal} (h : Removes r ni (x, s)) (h' : Removes s ni (y, t)) :
    Removes r ni (x + y, t) := by
  constructor
  · intro other hother
    exact (h'.tables other hother).trans (h.tables other hother)
  · intro other hother
    exact (h'.hardware other hother).trans (h.hardware other hother)
  · exact h'.numbers.trans h.numbers
  · have hfirst : x.removed + (s.entries ni).length = (r.entries ni).length := h.counted
    have hrest : y.removed + (t.entries ni).length = (s.entries ni).length := h'.counted
    simp only [Removal.removed_add]
    omega

theorem length_entries_setAft {a b : Aft} (known : r.instances.get? ni = some a) (hk : a.contains k)
    (row : b.installed = a.installed.erase k) :
    1 + ((r.setAft ni b).entries ni).length = (r.entries ni).length := by
  have hlength := length_entries_erase row hk
  have hnew : (r.setAft ni b).instances.get? ni = some b := Table.get?_insert_self ..
  simp only [entries, hnew, known]
  omega

theorem Discarded.removes {out : Removal × Rib} (h : Discarded r ni k out) : Removes r ni out := by
  cases h with
  | absent => exact .refl r ni 0
  | held => exact .refl r ni 1
  | dropped known free failing sound row number =>
    refine ⟨fun other hother => Table.get?_insert_of_ne _ _ hother, fun _ _ => rfl, ?_, ?_⟩
    · rw [setAft, Table.get?_insert_self, known, Option.map_some, Option.map_some, number]
    · exact length_entries_setAft (r := r.refuse) known (contains_of_holders? free) row
  | done known free working sound row number =>
    refine ⟨fun other hother => Table.get?_insert_of_ne _ _ hother, fun other hother => ?_, ?_, ?_⟩
    · exact (ForwardingPlane.fib_setFib ..).trans (if_neg hother)
    · rw [put, setAft, Table.get?_insert_self, known, Option.map_some, Option.map_some, number]
    · exact length_entries_setAft (r := { r with plane := _ }) known (contains_of_holders? free) row

theorem discardAll_removes (hc : r.Coherent) (ni : String) (ks : List EntryKey) :
    Removes r ni (r.discardAll ni ks) := by
  induction ks generalizing r with
  | nil => exact .refl r ni 0
  | cons k ks ih =>
    have hfirst := (discard_cases hc ni k).removes
    exact hfirst.trans (ih ((discard_clearing hc ni k).coherent hc))

theorem removeKind_removes (hc : r.Coherent) (ni : String) (owner : Option ClientId) (kind : EntryKind) :
    Removes r ni (r.removeKind ni owner kind) := by
  rw [removeKind]
  split
  · exact .refl r ni 0
  · exact discardAll_removes hc ni _

theorem removeWhere_removes (hc : r.Coherent) (ni : String) (owner : Option ClientId) :
    Removes r ni (r.removeWhere ni owner) := by
  have hc₁ := (removeKind_clearing hc ni owner .ipv4).coherent hc
  have hc₂ := (removeKind_clearing hc₁ ni owner .nextHopGroup).coherent hc₁
  exact ((removeKind_removes hc ni owner .ipv4).trans (removeKind_removes hc₁ ni owner .nextHopGroup)).trans
    (removeKind_removes hc₂ ni owner .nextHop)

/-! ### Nothing remains -/

theorem remaining_discard (hc : r.Coherent) (free : ¬r.InUse ni k) : (r.discard ni k).1.remaining = 0 := by
  have hcases := discard_cases hc ni k
  generalize r.discard ni k = out at hcases
  cases hcases with
  | absent | dropped | done => rfl
  | held known held => exact absurd ((inUse_iff hc known held).2 (Nat.succ_pos _)) free

/-- Keys of one kind that nothing refers to all go. -/
theorem remaining_discardAll {kind : EntryKind} {ks : List EntryKey} (hc : r.Coherent)
    (hkind : ∀ k ∈ ks, k.kind = kind) (free : ∀ k ∈ ks, ¬r.InUse ni k) :
    (r.discardAll ni ks).1.remaining = 0 := by
  induction ks generalizing r with
  | nil => rfl
  | cons k ks ih =>
    have hfirst := remaining_discard hc (free k (.head _))
    have hrest := ih ((discard_clearing hc ni k).coherent hc) (fun j hj => hkind j (.tail _ hj)) fun j hj hused => by
      have hsame : j.kind = k.kind := (hkind j (.tail _ hj)).trans (hkind k (.head _)).symm
      exact free j (.tail _ hj) ((inUse_discard_iff hc hsame).1 hused)
    rw [discardAll_cons, Removal.remaining_add]
    omega

theorem remaining_removeKind {kind : EntryKind} (hc : r.Coherent) (free : ∀ k, k.kind = kind → ¬r.InUse ni k) :
    (r.removeKind ni owner kind).1.remaining = 0 := by
  rw [removeKind]
  split
  case h_1 => rfl
  case h_2 a known =>
    have hkind : ∀ j ∈ a.keysOf kind owner, j.kind = kind := fun j hj => (mem_keysOf.1 hj).1
    exact remaining_discardAll hc hkind fun j hj => free j (hkind j hj)

/-- A kind that has been removed altogether refers to nothing any more. -/
theorem not_inUse_of_removeKind {kind : EntryKind} (hc : r.Coherent) (free : ∀ k, k.kind = kind → ¬r.InUse ni k)
    (hk : k.referrerKind = kind) : ¬(r.removeKind ni none kind).2.InUse ni k := by
  rintro ⟨j, i, hj, hrefers⟩
  obtain ⟨hold, hkept⟩ := (row?_removeKind_iff hc).1 hj
  have hjkind : j.kind = kind := by
    rw [← hc.row_key hold, ← hk]
    exact Entry.kind_of_mem_references hrefers
  have hall : Selected none i := nofun
  exact free j hjkind (hkept rfl hjkind hall)

theorem not_inUse_ipv4 (r : Rib) (ni : String) (hk : k.kind = .ipv4) : ¬r.InUse ni k := by
  rintro ⟨j, i, -, hrefers⟩
  cases k with
  | ipv4 p => exact Entry.ipv4_notMem_references _ p hrefers
  | nextHop | nextHopGroup => contradiction

/-- A flush finds every key free. -/
theorem remaining_flush (hc : r.Coherent) (ni : String) : (r.flush ni).1.remaining = 0 := by
  have hc₁ := (removeKind_clearing hc ni none .ipv4).coherent hc
  have hc₂ := (removeKind_clearing hc₁ ni none .nextHopGroup).coherent hc₁
  have hfree : ∀ k : EntryKey, k.kind = .ipv4 → ¬r.InUse ni k := fun k hk => r.not_inUse_ipv4 ni hk
  have hfree₁ : ∀ k : EntryKey, k.kind = .nextHopGroup → ¬(r.removeKind ni none .ipv4).2.InUse ni k := by
    intro k hk
    apply not_inUse_of_removeKind hc hfree
    cases k <;> first | rfl | contradiction
  have hfree₂ : ∀ k : EntryKey, k.kind = .nextHop →
      ¬((r.removeKind ni none .ipv4).2.removeKind ni none .nextHopGroup).2.InUse ni k := by
    intro k hk
    apply not_inUse_of_removeKind hc₁ hfree₁
    cases k <;> first | rfl | contradiction
  have hsum : (r.flush ni).1.remaining = (r.removeKind ni none .ipv4).1.remaining +
      ((r.removeKind ni none .ipv4).2.removeKind ni none .nextHopGroup).1.remaining +
      (((r.removeKind ni none .ipv4).2.removeKind ni none .nextHopGroup).2.removeKind ni none .nextHop).1.remaining :=
    rfl
  rw [hsum, remaining_removeKind hc hfree, remaining_removeKind hc₁ hfree₁, remaining_removeKind hc₂ hfree₂]

/-- A flush leaves no row in its network instance. -/
theorem row?_flush (hc : r.Coherent) (ni : String) (k : EntryKey) : (r.flush ni).2.row? ni k = none := by
  refine Option.eq_none_iff_forall_ne_some.2 fun i hi => ?_
  have hkept := ((row?_removeWhere_iff hc).1 hi).2
  have hall : Selected none i := nofun
  exact not_retained_none (hkept rfl hall)

/-! ### A whole flush -/

/-- The network instance is empty, all that it held is counted as removed, and the other network instances are as
they were on both sides. -/
structure Vacated (r : Rib) (ni : String) (a : Aft) (out : Removal × Rib) : Prop where
  counts : out.1 = ⟨a.size, 0⟩
  empty : out.2.instances.get? ni = some { lastDeviceId := a.lastDeviceId }
  tables : ∀ other, other ≠ ni → out.2.instances.get? other = r.instances.get? other
  hardware : ∀ other, other ≠ ni → out.2.plane.fib other = r.plane.fib other

/-- Nothing but removals that leave no row. -/
theorem Removes.vacated {a : Aft} {out : Removal × Rib} (h : Removes r ni out)
    (known : r.instances.get? ni = some a) (remaining : out.1.remaining = 0)
    (rows : ∀ k, out.2.row? ni k = none) : r.Vacated ni a out := by
  obtain ⟨b, hb, hlast⟩ : ∃ b, out.2.instances.get? ni = some b ∧ b.lastDeviceId = a.lastDeviceId := by
    have hnumbers := h.numbers
    rw [known, Option.map_some] at hnumbers
    exact Option.map_eq_some_iff.1 hnumbers
  have hempty : b = { lastDeviceId := a.lastDeviceId } := by
    rw [← hlast]
    apply eq_of_get?_none
    intro k
    have hrow := rows k
    rw [row?_of_get? hb, get?_installed, Option.map_eq_none_iff] at hrow
    exact hrow
  have hremoved : out.1.removed = a.size := by
    have hbefore : r.entries ni = a.entries := by rw [entries, known]
    have hafter : out.2.entries ni = [] := by rw [entries, hb, hempty]; rfl
    have hcounted := h.counted
    rw [hafter, hbefore, ← size_eq] at hcounted
    simpa using hcounted
  have hcounts : out.1 = ⟨out.1.removed, out.1.remaining⟩ := rfl
  rw [hremoved, remaining] at hcounts
  exact ⟨hcounts, hempty ▸ hb, h.tables, h.hardware⟩

theorem flush_vacates {a : Aft} (hc : r.Coherent) (known : r.instances.get? ni = some a) :
    r.Vacated ni a (r.flush ni) :=
  (removeWhere_removes hc ni none).vacated known (remaining_flush hc ni) (row?_flush hc ni)

theorem remaining_flushAll (hc : r.Coherent) (nis : List String) : (r.flushAll nis).1.remaining = 0 := by
  induction nis generalizing r with
  | nil => rfl
  | cons ni nis ih =>
    have hfirst := remaining_flush hc ni
    have hrest : ((r.flush ni).2.flushAll nis).1.remaining = 0 :=
      ih ((removeWhere_clearing hc ni none).coherent hc)
    have hsum : (r.flushAll (ni :: nis)).1.remaining =
        (r.flush ni).1.remaining + ((r.flush ni).2.flushAll nis).1.remaining := rfl
    omega

/-! ### One removal at a time -/

/-- The keys of a kind depend on the rows of that kind only. -/
theorem keysOf_congr {a b : Aft} {kind : EntryKind}
    (h : ∀ k : EntryKey, k.kind = kind → a.installed.get? k = b.installed.get? k) :
    a.keysOf kind owner = b.keysOf kind owner := by
  have hmem (k : EntryKey) : k ∈ a.keysOf kind owner ↔ k ∈ b.keysOf kind owner := by
    rw [mem_keysOf, mem_keysOf]
    exact and_congr_right fun hk => by rw [h k hk]
  have howned {κ ε : Type} [Ord κ] [Std.LawfulEqOrd κ] [Std.TransOrd κ] {t u : HeldTable κ (Installed ε)}
      (hkeys : ∀ j, j ∈ ownedKeys t owner ↔ j ∈ ownedKeys u owner) : ownedKeys t owner = ownedKeys u owner := by
    apply Table.keys_congr
    intro j
    rw [Bool.eq_iff_iff, ← Table.mem_keys_iff, ← Table.mem_keys_iff]
    exact hkeys j
  cases kind with
  | nextHop => exact congrArg _ (howned fun i => by simpa [keysOf] using hmem (.nextHop i))
  | nextHopGroup => exact congrArg _ (howned fun i => by simpa [keysOf] using hmem (.nextHopGroup i))
  | ipv4 => exact congrArg _ (howned fun p => by simpa [keysOf] using hmem (.ipv4 p))

/-- The keys of a network instance in the order in which a bulk removal takes them: those of one owner, or all for a
flush. -/
def removalKeys (a : Aft) (owner : Option ClientId) : List EntryKey :=
  a.keysOf .ipv4 owner ++ a.keysOf .nextHopGroup owner ++ a.keysOf .nextHop owner

theorem discardAll_append (r : Rib) (ni : String) (ks ls : List EntryKey) :
    r.discardAll ni (ks ++ ls) = ((r.discardAll ni ks).1 + ((r.discardAll ni ks).2.discardAll ni ls).1,
      ((r.discardAll ni ks).2.discardAll ni ls).2) := by
  induction ks generalizing r with
  | nil => rw [List.nil_append, discardAll, Removal.zero_add]
  | cons k ks ih => rw [List.cons_append, discardAll_cons, ih, discardAll_cons, Removal.add_assoc]

theorem row?_removeKind_of_ne {kind : EntryKind} (hc : r.Coherent) (hk : k.kind ≠ kind) :
    (r.removeKind ni owner kind).2.row? ni k = r.row? ni k := by
  refine Option.ext fun i => ?_
  rw [row?_removeKind_iff hc]
  exact and_iff_left_of_imp fun _ _ hkind => absurd hkind hk

theorem Removes.known {a : Aft} {out : Removal × Rib} (h : Removes r ni out)
    (known : r.instances.get? ni = some a) : ∃ b, out.2.instances.get? ni = some b := by
  have hnumbers := h.numbers
  rw [known, Option.map_some] at hnumbers
  obtain ⟨b, hb, -⟩ := Option.map_eq_some_iff.1 hnumbers
  exact ⟨b, hb⟩

/-- The keys of a kind are the same in all tables that have the same rows of that kind. -/
theorem removeKind_eq_discardAll {a b : Aft} {kind : EntryKind} (known : r.instances.get? ni = some a)
    (now : s.instances.get? ni = some b) (hrows : ∀ k : EntryKey, k.kind = kind → s.row? ni k = r.row? ni k) :
    s.removeKind ni owner kind = s.discardAll ni (a.keysOf kind owner) := by
  have hkeys : b.keysOf kind owner = a.keysOf kind owner := by
    apply keysOf_congr
    intro k hk
    have hrow := hrows k hk
    rwa [row?_of_get? now, row?_of_get? known] at hrow
  rw [removeKind, now, ← hkeys]

theorem removeWhere_eq_discardAll {a : Aft} (hc : r.Coherent) (known : r.instances.get? ni = some a)
    (owner : Option ClientId) : r.removeWhere ni owner = r.discardAll ni (removalKeys a owner) := by
  have hc₁ := (removeKind_clearing hc ni owner .ipv4).coherent hc
  have hc₂ := (removeKind_clearing hc₁ ni owner .nextHopGroup).coherent hc₁
  obtain ⟨b, hb⟩ := (removeKind_removes hc ni owner .ipv4).known known
  obtain ⟨d, hd⟩ := (removeKind_removes hc₁ ni owner .nextHopGroup).known hb
  have hroutes : r.removeKind ni owner .ipv4 = r.discardAll ni (a.keysOf .ipv4 owner) :=
    removeKind_eq_discardAll known known fun _ _ => rfl
  have hgroups : (r.removeKind ni owner .ipv4).2.removeKind ni owner .nextHopGroup =
      (r.removeKind ni owner .ipv4).2.discardAll ni (a.keysOf .nextHopGroup owner) := by
    refine removeKind_eq_discardAll known hb fun k hk => ?_
    exact row?_removeKind_of_ne hc (by rw [hk]; nofun)
  have hnextHops :
      ((r.removeKind ni owner .ipv4).2.removeKind ni owner .nextHopGroup).2.removeKind ni owner .nextHop =
      ((r.removeKind ni owner .ipv4).2.removeKind ni owner .nextHopGroup).2.discardAll ni
        (a.keysOf .nextHop owner) := by
    refine removeKind_eq_discardAll known hd fun k hk => ?_
    rw [row?_removeKind_of_ne hc₁ (by rw [hk]; nofun), row?_removeKind_of_ne hc (by rw [hk]; nofun)]
  have hwhole : r.removeWhere ni owner = ((r.removeKind ni owner .ipv4).1 +
      ((r.removeKind ni owner .ipv4).2.removeKind ni owner .nextHopGroup).1 +
      (((r.removeKind ni owner .ipv4).2.removeKind ni owner .nextHopGroup).2.removeKind ni owner .nextHop).1,
      (((r.removeKind ni owner .ipv4).2.removeKind ni owner .nextHopGroup).2.removeKind ni owner .nextHop).2) :=
    rfl
  rw [hwhole, hnextHops, hgroups, hroutes, removalKeys, discardAll_append, discardAll_append]

theorem flush_eq_discardAll {a : Aft} (hc : r.Coherent) (known : r.instances.get? ni = some a) :
    r.flush ni = r.discardAll ni (removalKeys a none) := removeWhere_eq_discardAll hc known none

/-! ### An interrupted flush -/

/-- The same rows, whatever the hardware has. -/
def Alike (r s : Rib) : Prop := ∀ ni k, r.row? ni k = s.row? ni k

theorem Alike.inUse_iff (h : Alike r s) (ni : String) (k : EntryKey) : r.InUse ni k ↔ s.InUse ni k := by
  simp only [InUse, h ni]

theorem Alike.discard (h : Alike r s) (hr : r.Coherent) (hs : s.Coherent) (ni : String) (k : EntryKey) :
    Alike (r.discard ni k).2 (s.discard ni k).2 := by
  intro ni' k'
  refine Option.ext fun i => ?_
  rw [row?_discard_iff hr, row?_discard_iff hs, h ni' k', h.inUse_iff]

/-- What one removal counts: nothing without a row, the row itself where nothing refers to it. -/
inductive Counted (r : Rib) (ni : String) (k : EntryKey) : Removal → Prop
  | absent (row : r.row? ni k = none) : Counted r ni k {}
  | held (row : r.row? ni k ≠ none) (used : r.InUse ni k) : Counted r ni k ⟨0, 1⟩
  | free (row : r.row? ni k ≠ none) (unused : ¬r.InUse ni k) : Counted r ni k ⟨1, 0⟩

theorem row?_ne_none {a : Aft} {n : Nat} (known : r.instances.get? ni = some a) (hk : a.holders? k = some n) :
    r.row? ni k ≠ none := by
  obtain ⟨h, hget, -⟩ := Option.map_eq_some_iff.1 hk
  rw [row?_of_get? known, get?_installed, hget]
  exact Option.some_ne_none _

theorem counted_discard (hc : r.Coherent) (ni : String) (k : EntryKey) : Counted r ni k (r.discard ni k).1 := by
  have hcases := discard_cases hc ni k
  generalize r.discard ni k = out at hcases
  cases hcases with
  | absent absent => exact .absent (by rwa [installed?_eq_row?, Option.map_eq_none_iff] at absent)
  | held known held => exact .held (row?_ne_none known held) ((inUse_iff hc known held).2 (Nat.succ_pos _))
  | dropped known free | done known free =>
    refine .free (row?_ne_none known free) fun hused => ?_
    exact absurd ((inUse_iff hc known free).1 hused) (Nat.lt_irrefl 0)

theorem Alike.counted_eq (h : Alike r s) {x y : Removal} (hx : Counted r ni k x) (hy : Counted s ni k y) :
    x = y := by
  have hrow := h ni k
  have huse := h.inUse_iff ni k
  cases hx <;> cases hy <;> first | rfl | simp_all

/-- What an event removes. -/
def removal (r : Rib) : Event → Removal
  | .removeOwnedBy client => (r.removeOwnedBy client).1
  | .flush ni => (r.flush ni).1
  | .discard ni k => (r.discard ni k).1
  | .batch _ _ | .failNext _ | .configure _ _ _ _ | .removeInterface _ => {}

def removals (r : Rib) : List Event → Removal
  | [] => {}
  | v :: vs => r.removal v + (r.step v).removals vs

/-- The removals of a flush one by one, with failures injected at any time before, between and after them. -/
structure Interrupted (ni : String) (ks : List EntryKey) (es : List Event) : Prop where
  inOrder : es.filter Event.isRemoval = ks.map (.discard ni)
  injections : ∀ v ∈ es, v.isRemoval = false → ∃ n, v = .failNext n

/-- Injections take no part in what becomes of the rows. -/
theorem Interrupted.run {ks : List EntryKey} {es : List Event} (h : Interrupted ni ks es) (hr : r.Coherent)
    (hs : s.Coherent) (alike : Alike r s) :
    Removes r ni (r.removals es, r.run es) ∧ r.removals es = (s.discardAll ni ks).1 ∧
      Alike (r.run es) (s.discardAll ni ks).2 := by
  induction es generalizing r s ks with
  | nil =>
    obtain rfl : ks = [] := List.map_eq_nil_iff.1 h.inOrder.symm
    exact ⟨.refl r ni 0, rfl, alike⟩
  | cons v es ih =>
    have hcoherent := (step_cases hr v).coherent hr
    have hrest : ∀ w ∈ es, w.isRemoval = false → ∃ n, w = .failNext n := by
      intro w hw
      exact h.injections w (.tail _ hw)
    cases hv : v.isRemoval with
    | false =>
      obtain ⟨n, rfl⟩ := h.injections v (.head _) hv
      obtain ⟨hremoves, hcount, hrows⟩ := ih ⟨h.inOrder, hrest⟩ hcoherent hs alike
      have hsame : r.removals (.failNext n :: es) = (r.step (.failNext n)).removals es := Removal.zero_add _
      rw [hsame]
      exact ⟨⟨hremoves.tables, hremoves.hardware, hremoves.numbers, hremoves.counted⟩, hcount, hrows⟩
    | true =>
      have hfilter := h.inOrder
      rw [List.filter_cons_of_pos hv] at hfilter
      obtain ⟨k, ks, rfl, rfl, hks⟩ := List.map_eq_cons_iff.1 hfilter.symm
      have hs' := (discard_clearing hs ni k).coherent hs
      obtain ⟨hremoves, hcount, hrows⟩ := ih ⟨hks.symm, hrest⟩ hcoherent hs' (alike.discard hr hs ni k)
      have hfirst : (r.discard ni k).1 = (s.discard ni k).1 :=
        alike.counted_eq (counted_discard hr ni k) (counted_discard hs ni k)
      refine ⟨(discard_cases hr ni k).removes.trans hremoves, ?_, hrows⟩
      have hsum : r.removals (.discard ni k :: es) =
          (r.discard ni k).1 + (r.step (.discard ni k)).removals es := rfl
      rw [hsum, hcount, hfirst]
      rfl

/-- A flush does the same to its network instance whenever failures are injected into it. -/
theorem Interrupted.vacates {a : Aft} {es : List Event} (h : Interrupted ni (removalKeys a none) es) (hc : r.Coherent)
    (known : r.instances.get? ni = some a) : r.Vacated ni a (r.removals es, r.run es) := by
  obtain ⟨hremoves, hcount, hrows⟩ := h.run hc hc fun _ _ => rfl
  rw [← flush_eq_discardAll hc known] at hcount hrows
  apply hremoves.vacated known
  · rw [hcount]
    exact remaining_flush hc ni
  · intro k
    rw [hrows ni k]
    exact row?_flush hc ni k

end Rib

end RouteProgramming
