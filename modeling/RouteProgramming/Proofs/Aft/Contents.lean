import RouteProgramming.Aft
import RouteProgramming.Proofs.Table.Rows

/-! The three tables of a network instance read as one table from keys to
installed entries. Holding, releasing, writing and taking a row are operations
on single keys of that table; everything that is proved about the contents of a
network instance goes through it, so that no later proof looks at the kinds. -/

namespace RouteProgramming

open Std

/-! ### The order of keys -/

namespace EntryKey

/-- Next-hops come before groups and groups before IPv4 entries, as in a listing. -/
def order : EntryKey → EntryKey → Ordering
  | .nextHop i, .nextHop j => compare i j
  | .nextHop _, _ => .lt
  | .nextHopGroup _, .nextHop _ => .gt
  | .nextHopGroup i, .nextHopGroup j => compare i j
  | .nextHopGroup _, .ipv4 _ => .lt
  | .ipv4 p, .ipv4 q => compare p q
  | .ipv4 _, _ => .gt

instance : Ord EntryKey := ⟨order⟩

theorem order_swap (a b : EntryKey) : order a b = (order b a).swap := by
  cases a <;> cases b <;> first | rfl | exact OrientedOrd.eq_swap

theorem order_isLE_trans {a b c : EntryKey} (hab : (order a b).isLE) (hbc : (order b c).isLE) :
    (order a c).isLE := by
  cases a <;> cases b <;> cases c <;>
    first
      | rfl
      | exact absurd hab Bool.false_ne_true
      | exact absurd hbc Bool.false_ne_true
      | exact TransOrd.isLE_trans hab hbc

instance : TransOrd EntryKey where
  eq_swap := order_swap _ _
  isLE_trans := order_isLE_trans

instance : LawfulEqOrd EntryKey where
  compare_self {a} := by cases a <;> exact ReflOrd.compare_self
  eq_of_compare {a b} h := by
    cases a <;> cases b <;> first | cases h | exact congrArg _ (LawfulEqOrd.eq_of_compare h)

end EntryKey

/-! ### Holders of one row -/

namespace HeldTable

variable {κ ν : Type} [Ord κ] [LawfulEqOrd κ] [DecidableEq κ] {t : HeldTable κ ν} {k : κ} {v : Held ν}

theorem get?_recount (h : t.get? k = some v) (n : Nat) (k' : κ) :
    (t.modify k (fun h => ⟨h.value, n⟩)).get? k' = if k' = k then some ⟨v.value, n⟩ else t.get? k' := by
  rw [Table.get?_modify, h]
  rfl

theorem hold_of_get? (h : t.get? k = some v) :
    ∃ t', hold t k = .ok t' ∧
      ∀ k', t'.get? k' = if k' = k then some ⟨v.value, v.holders + 1⟩ else t.get? k' := by
  refine ⟨_, ?_, get?_recount h _⟩
  simp only [hold, holders?, h, Option.map_some]

theorem release_of_get? {n : Nat} (h : t.get? k = some v) (hn : v.holders = n + 1) :
    ∃ t', release t k = .ok t' ∧ ∀ k', t'.get? k' = if k' = k then some ⟨v.value, n⟩ else t.get? k' := by
  refine ⟨_, ?_, get?_recount h _⟩
  simp only [release, holders?, h, Option.map_some, hn]

omit [LawfulEqOrd κ] [DecidableEq κ] in
theorem remove_of_get? {i : ν} (h : t.get? k = some ⟨i, 0⟩) : remove t k = .ok (i, t.erase k) := by
  simp only [remove, h]

end HeldTable

namespace Aft

/-! ### One table -/

theorem increasing_map {κ ν : Type} [Ord κ] {t : Table κ ν} {f : κ → EntryKey} {g : ν → InstalledEntry}
    (hf : ∀ i j, compare (f i) (f j) = compare i j) :
    (t.rows.map (fun r => (f r.1, g r.2))).Pairwise (fun a b => compare a.1 b.1 = .lt) := by
  refine List.pairwise_map.2 (t.increasing.imp fun {a b} h => ?_)
  rw [hf, h]

/-- All installed entries by their keys. -/
def table (a : Aft) : Table EntryKey InstalledEntry where
  rows :=
    a.nextHops.rows.map (fun r => (.nextHop r.1, view .nextHop r.2)) ++
      (a.groups.rows.map (fun r => (.nextHopGroup r.1, view .nextHopGroup r.2)) ++
        a.ipv4.rows.map (fun r => (.ipv4 r.1, view .ipv4 r.2)))
  increasing := by
    refine List.pairwise_append.2 ⟨increasing_map fun _ _ => rfl, List.pairwise_append.2
      ⟨increasing_map fun _ _ => rfl, increasing_map fun _ _ => rfl, ?_⟩, ?_⟩
    · intro x hx y hy
      obtain ⟨r, -, rfl⟩ := List.mem_map.1 hx
      obtain ⟨s, -, rfl⟩ := List.mem_map.1 hy
      rfl
    · intro x hx y hy
      obtain ⟨r, -, rfl⟩ := List.mem_map.1 hx
      rcases List.mem_append.1 hy with hy | hy <;> obtain ⟨s, -, rfl⟩ := List.mem_map.1 hy <;> rfl

theorem get?_table (a : Aft) (k : EntryKey) : a.table.get? k = a.get? k := by
  refine Option.ext fun h => ?_
  rw [Table.get?_eq_some_iff]
  simp only [table, List.mem_append, List.mem_map]
  cases k with
  | nextHop i =>
    simp only [get?, Option.map_eq_some_iff, Table.get?_eq_some_iff]
    constructor
    · rintro (⟨⟨j, v⟩, hr, he⟩ | ⟨⟨j, v⟩, hr, he⟩ | ⟨⟨j, v⟩, hr, he⟩) <;> cases he
      exact ⟨v, hr, rfl⟩
    · rintro ⟨v, hr, rfl⟩
      exact .inl ⟨_, hr, rfl⟩
  | nextHopGroup i =>
    simp only [get?, Option.map_eq_some_iff, Table.get?_eq_some_iff]
    constructor
    · rintro (⟨⟨j, v⟩, hr, he⟩ | ⟨⟨j, v⟩, hr, he⟩ | ⟨⟨j, v⟩, hr, he⟩) <;> cases he
      exact ⟨v, hr, rfl⟩
    · rintro ⟨v, hr, rfl⟩
      exact .inr (.inl ⟨_, hr, rfl⟩)
  | ipv4 p =>
    simp only [get?, Option.map_eq_some_iff, Table.get?_eq_some_iff]
    constructor
    · rintro (⟨⟨j, v⟩, hr, he⟩ | ⟨⟨j, v⟩, hr, he⟩ | ⟨⟨j, v⟩, hr, he⟩) <;> cases he
      exact ⟨v, hr, rfl⟩
    · rintro ⟨v, hr, rfl⟩
      exact .inr (.inr ⟨_, hr, rfl⟩)

theorem view_inj {ε : Type} {f : ε → Entry} (hf : ∀ d e, f d = f e → d = e) {h g : Held (Installed ε)}
    (heq : view f h = view f g) : h = g := by
  obtain ⟨⟨e, owner, number, outcome⟩, holders⟩ := h
  simp only [view, Installed.map, Held.mk.injEq, Installed.mk.injEq] at heq
  obtain ⟨⟨he, rfl, rfl, rfl⟩, rfl⟩ := heq
  rw [hf _ _ he]

/-- The rows and the last number are all that there is. -/
theorem ext_get? {a b : Aft} (h : ∀ k, a.get? k = b.get? k) (last : a.lastDeviceId = b.lastDeviceId) : a = b := by
  have hnextHops : a.nextHops = b.nextHops := Table.ext_get? fun i =>
    (Option.map_inj_right fun _ _ => view_inj fun _ _ => Entry.nextHop.inj).1 (h (.nextHop i))
  have hgroups : a.groups = b.groups := Table.ext_get? fun i =>
    (Option.map_inj_right fun _ _ => view_inj fun _ _ => Entry.nextHopGroup.inj).1 (h (.nextHopGroup i))
  have hipv4 : a.ipv4 = b.ipv4 := Table.ext_get? fun p =>
    (Option.map_inj_right fun _ _ => view_inj fun _ _ => Entry.ipv4.inj).1 (h (.ipv4 p))
  cases a
  cases b
  simp only at hnextHops hgroups hipv4 last
  rw [hnextHops, hgroups, hipv4, last]

theorem entries_eq (a : Aft) : a.entries = a.table.values := by
  simp only [entries, table, Table.values, List.map_append, List.map_map, List.append_assoc]
  rfl

/-! ### One kind at a time -/

variable {a b : Aft} {k : EntryKey} {h : InstalledEntry}

/-- A change of one next-hop is a change of one key. -/
theorem get?_withNextHops {t : HeldTable UInt64 (Installed NextHop)} {i : UInt64}
    {w : Option (Held (Installed NextHop))} (d : Nat)
    (ht : ∀ j, t.get? j = if j = i then w else a.nextHops.get? j) (k : EntryKey) :
    { a with nextHops := t, lastDeviceId := d }.get? k =
      if k = .nextHop i then w.map (view .nextHop) else a.get? k := by
  cases k with
  | nextHop j =>
    simp only [get?, ht, EntryKey.nextHop.injEq]
    split <;> rfl
  | nextHopGroup j => rfl
  | ipv4 p => rfl

theorem get?_withGroups {t : HeldTable UInt64 (Installed NextHopGroup)} {i : UInt64}
    {w : Option (Held (Installed NextHopGroup))} (d : Nat)
    (ht : ∀ j, t.get? j = if j = i then w else a.groups.get? j) (k : EntryKey) :
    { a with groups := t, lastDeviceId := d }.get? k =
      if k = .nextHopGroup i then w.map (view .nextHopGroup) else a.get? k := by
  cases k with
  | nextHop j => rfl
  | nextHopGroup j =>
    simp only [get?, ht, EntryKey.nextHopGroup.injEq]
    split <;> rfl
  | ipv4 p => rfl

theorem get?_withIpv4 {t : HeldTable Cidr (Installed Ipv4Entry)} {i : Cidr}
    {w : Option (Held (Installed Ipv4Entry))} (d : Nat)
    (ht : ∀ j, t.get? j = if j = i then w else a.ipv4.get? j) (k : EntryKey) :
    { a with ipv4 := t, lastDeviceId := d }.get? k =
      if k = .ipv4 i then w.map (view .ipv4) else a.get? k := by
  cases k with
  | nextHop j => rfl
  | nextHopGroup j => rfl
  | ipv4 p =>
    simp only [get?, ht, EntryKey.ipv4.injEq]
    split <;> rfl

/-! ### Holding and releasing -/

theorem hold_of_get? (hk : a.get? k = some h) :
    ∃ b, a.hold k = .ok b ∧ b.lastDeviceId = a.lastDeviceId ∧
      ∀ k', b.get? k' = if k' = k then some ⟨h.value, h.holders + 1⟩ else a.get? k' := by
  cases k with
  | nextHop i =>
    obtain ⟨v, hv, rfl⟩ := Option.map_eq_some_iff.1 hk
    obtain ⟨t, hrun, hget⟩ := HeldTable.hold_of_get? hv
    exact ⟨{ a with nextHops := t }, by rw [hold, hrun]; rfl, rfl, get?_withNextHops _ hget⟩
  | nextHopGroup i =>
    obtain ⟨v, hv, rfl⟩ := Option.map_eq_some_iff.1 hk
    obtain ⟨t, hrun, hget⟩ := HeldTable.hold_of_get? hv
    exact ⟨{ a with groups := t }, by rw [hold, hrun]; rfl, rfl, get?_withGroups _ hget⟩
  | ipv4 p =>
    obtain ⟨v, hv, rfl⟩ := Option.map_eq_some_iff.1 hk
    obtain ⟨t, hrun, hget⟩ := HeldTable.hold_of_get? hv
    exact ⟨{ a with ipv4 := t }, by rw [hold, hrun]; rfl, rfl, get?_withIpv4 _ hget⟩

theorem release_of_get? {n : Nat} (hk : a.get? k = some h) (hn : h.holders = n + 1) :
    ∃ b, a.release k = .ok b ∧ b.lastDeviceId = a.lastDeviceId ∧
      ∀ k', b.get? k' = if k' = k then some ⟨h.value, n⟩ else a.get? k' := by
  cases k with
  | nextHop i =>
    obtain ⟨v, hv, rfl⟩ := Option.map_eq_some_iff.1 hk
    obtain ⟨t, hrun, hget⟩ := HeldTable.release_of_get? hv hn
    exact ⟨{ a with nextHops := t }, by rw [release, hrun]; rfl, rfl, get?_withNextHops _ hget⟩
  | nextHopGroup i =>
    obtain ⟨v, hv, rfl⟩ := Option.map_eq_some_iff.1 hk
    obtain ⟨t, hrun, hget⟩ := HeldTable.release_of_get? hv hn
    exact ⟨{ a with groups := t }, by rw [release, hrun]; rfl, rfl, get?_withGroups _ hget⟩
  | ipv4 p =>
    obtain ⟨v, hv, rfl⟩ := Option.map_eq_some_iff.1 hk
    obtain ⟨t, hrun, hget⟩ := HeldTable.release_of_get? hv hn
    exact ⟨{ a with ipv4 := t }, by rw [release, hrun]; rfl, rfl, get?_withIpv4 _ hget⟩

/-! ### Writing -/

/-- The number that a row gets when it is written: its own, or the next one that is free. -/
def numberFor (a : Aft) (k : EntryKey) : Nat :=
  ((a.get? k).map (·.value.deviceId)).getD (a.lastDeviceId + 1)

section Put

variable {κ ε : Type} [Ord κ] [TransOrd κ] (t : HeldTable κ (Installed ε)) (i : κ) (e : ε) (owner : ClientId)
  (outcome : Outcome) (fresh : Nat)

theorem put_fst : (put t i e owner outcome fresh).1 = (t.get? i).map (·.value.entry) := by
  rw [put]
  split
  case h_1 old h => rw [h]; rfl
  case h_2 h => rw [h]; rfl

theorem get?_put [LawfulEqOrd κ] [DecidableEq κ] (j : κ) :
    (put t i e owner outcome fresh).2.get? j =
      if j = i then
        some ⟨⟨e, owner, ((t.get? i).map (·.value.deviceId)).getD fresh, outcome⟩,
          ((t.get? i).map (·.holders)).getD 0⟩
      else t.get? j := by
  rw [put]
  split
  case h_1 old h => rw [Table.get?_modify, h]; rfl
  case h_2 h => rw [Table.get?_insert, h]; rfl

end Put

variable (a) (e : Entry) (owner : ClientId) (outcome : Outcome)

theorem write_fst : (a.write e owner outcome).1 = (a.get? e.key).map (·.value.entry) := by
  cases e with
  | nextHop e =>
    refine (congrArg (Option.map Entry.nextHop) (put_fst a.nextHops e.index e owner outcome _)).trans ?_
    simp only [Entry.key, get?, Option.map_map]
    rfl
  | nextHopGroup e =>
    refine (congrArg (Option.map Entry.nextHopGroup) (put_fst a.groups e.id e owner outcome _)).trans ?_
    simp only [Entry.key, get?, Option.map_map]
    rfl
  | ipv4 e =>
    refine (congrArg (Option.map Entry.ipv4) (put_fst a.ipv4 e.destination e owner outcome _)).trans ?_
    simp only [Entry.key, get?, Option.map_map]
    rfl

theorem get?_write (k : EntryKey) :
    (a.write e owner outcome).2.get? k =
      if k = e.key then some ⟨⟨e, owner, a.numberFor e.key, outcome⟩, (a.holders? e.key).getD 0⟩
      else a.get? k := by
  cases e with
  | nextHop e =>
    refine (get?_withNextHops _ (get?_put a.nextHops e.index e owner outcome _) k).trans ?_
    simp only [Entry.key, numberFor, holders?, get?, Option.map_map]
    rfl
  | nextHopGroup e =>
    refine (get?_withGroups _ (get?_put a.groups e.id e owner outcome _) k).trans ?_
    simp only [Entry.key, numberFor, holders?, get?, Option.map_map]
    rfl
  | ipv4 e =>
    refine (get?_withIpv4 _ (get?_put a.ipv4 e.destination e owner outcome _) k).trans ?_
    simp only [Entry.key, numberFor, holders?, get?, Option.map_map]
    rfl

/-- A row that is new uses up the next number. -/
theorem lastDeviceId_write : (a.write e owner outcome).2.lastDeviceId =
    if a.contains e.key then a.lastDeviceId else a.lastDeviceId + 1 := by
  cases e with
  | nextHop e =>
    have hfst := put_fst a.nextHops e.index e owner outcome (a.lastDeviceId + 1)
    simp only [write, Entry.key, contains, get?, hfst, Option.isSome_map]
  | nextHopGroup e =>
    have hfst := put_fst a.groups e.id e owner outcome (a.lastDeviceId + 1)
    simp only [write, Entry.key, contains, get?, hfst, Option.isSome_map]
  | ipv4 e =>
    have hfst := put_fst a.ipv4 e.destination e owner outcome (a.lastDeviceId + 1)
    simp only [write, Entry.key, contains, get?, hfst, Option.isSome_map]

/-! ### Taking -/

variable {a}

theorem take_of_get? {i : Installed Entry} (hk : a.get? k = some ⟨i, 0⟩) :
    ∃ b, a.take k = .ok (i.entry, b) ∧ b.lastDeviceId = a.lastDeviceId ∧
      ∀ k', b.get? k' = if k' = k then none else a.get? k' := by
  cases k with
  | nextHop j =>
    obtain ⟨⟨v, n⟩, hv, he⟩ := Option.map_eq_some_iff.1 hk
    cases he
    have hget := Table.get?_erase a.nextHops j
    refine ⟨{ a with nextHops := a.nextHops.erase j }, ?_, rfl, get?_withNextHops (w := none) _ hget⟩
    rw [take, HeldTable.remove_of_get? hv]
    rfl
  | nextHopGroup j =>
    obtain ⟨⟨v, n⟩, hv, he⟩ := Option.map_eq_some_iff.1 hk
    cases he
    have hget := Table.get?_erase a.groups j
    refine ⟨{ a with groups := a.groups.erase j }, ?_, rfl, get?_withGroups (w := none) _ hget⟩
    rw [take, HeldTable.remove_of_get? hv]
    rfl
  | ipv4 p =>
    obtain ⟨⟨v, n⟩, hv, he⟩ := Option.map_eq_some_iff.1 hk
    cases he
    have hget := Table.get?_erase a.ipv4 p
    refine ⟨{ a with ipv4 := a.ipv4.erase p }, ?_, rfl, get?_withIpv4 (w := none) _ hget⟩
    rw [take, HeldTable.remove_of_get? hv]
    rfl

theorem take_of_get?_none (hk : a.get? k = none) : a.take k = .error .absent := by
  cases k with
  | nextHop j => rw [take, HeldTable.remove, Option.map_eq_none_iff.1 hk]; rfl
  | nextHopGroup j => rw [take, HeldTable.remove, Option.map_eq_none_iff.1 hk]; rfl
  | ipv4 p => rw [take, HeldTable.remove, Option.map_eq_none_iff.1 hk]; rfl

/-! ### Sizes -/

theorem sizeOf_eq (a : Aft) (kind : EntryKind) :
    a.sizeOf kind = a.table.rows.countP (fun r => decide (r.1.kind = kind)) := by
  cases kind <;> simp [sizeOf, Table.size, table, List.countP_map, Function.comp_def, EntryKey.kind]

end Aft

end RouteProgramming
