import Mathlib.Data.List.Nodup
import RouteProgramming.Telemetry
import RouteProgramming.Proofs.Aft.Integrity

/-! Snapshots of a network instance. Where the tables are sound and no two
entries have the same number, a snapshot shows each entry once, every reference
in it is the number of exactly one item, and that item carries the client's own
number. So what the clients have programmed can be read off a snapshot. -/

namespace RouteProgramming

/-! ### Reading a snapshot -/

namespace Telemetry

/-- The items with a number of the device. -/
def nextHopsWith (t : Telemetry) (id : Nat) : List NextHopItem := t.nextHops.filter (·.id = id)

def groupsWith (t : Telemetry) (id : Nat) : List GroupItem := t.groups.filter (·.id = id)

/-- The keys of all items, as clients know them. -/
def keys (t : Telemetry) : List EntryKey :=
  t.nextHops.map (.nextHop ·.programmedIndex) ++ t.groups.map (.nextHopGroup ·.programmedId) ++
    t.ipv4.map (.ipv4 ·.destination)

/-- A member as the client gave it, if its next-hop is in the snapshot. -/
def member? (t : Telemetry) (m : Member) : Option (UInt64 × UInt64) :=
  (t.nextHopsWith m.nextHop).head?.map (fun n => (n.programmedIndex, m.weight))

/-- The entries of clients that a snapshot tells of. -/
def programmed (t : Telemetry) : List Entry :=
  t.nextHops.map (fun n => .nextHop ⟨n.programmedIndex, n.address, n.interface⟩) ++
    t.groups.map (fun g => .nextHopGroup ⟨g.programmedId, Table.ofList (g.members.filterMap t.member?)⟩) ++
    t.ipv4.filterMap (fun p => (t.groupsWith p.group).head?.map fun g => .ipv4 ⟨p.destination, g.programmedId⟩)

/-- What a snapshot shows of the tables of a network instance. -/
structure Mirrors (t : Telemetry) (a : Aft) : Prop where
  keys : t.keys = a.entries.map (·.value.entry.key)
  distinct : t.keys.Nodup
  nextHops : ∀ n ∈ t.nextHops, ∃ h, a.get? (.nextHop n.programmedIndex) = some h ∧ h.value.deviceId = n.id
  groups : ∀ g ∈ t.groups, ∃ h e, a.get? (.nextHopGroup g.programmedId) = some h ∧ h.value.deviceId = g.id ∧
    h.value.entry = .nextHopGroup e ∧
    g.members.map (fun m => ((t.nextHopsWith m.nextHop).map (·.programmedIndex), m.weight)) =
      e.members.rows.map (fun r => ([r.1], r.2))
  ipv4 : ∀ p ∈ t.ipv4, ∃ h e, a.get? (.ipv4 p.destination) = some h ∧ h.value.entry = .ipv4 e ∧
    (t.groupsWith p.group).map (·.programmedId) = [e.group]
  programmed : t.programmed = a.entries.map (·.value.entry)

end Telemetry

namespace Aft

open Telemetry

variable {a : Aft} {ni : String}

/-- No two entries have the same number. -/
def Distinct (a : Aft) : Prop :=
  ∀ j k g h, a.get? j = some g → a.get? k = some h → g.value.deviceId = h.value.deviceId → j = k

theorem Distinct.nodup_entries (hd : a.Distinct) : (a.entries.map (·.value.deviceId)).Nodup := by
  rw [entries_eq, Table.values, List.map_map]
  refine List.Nodup.map_on (fun r hr s hs hsame => ?_) a.table.rows_nodup
  have hget {r : EntryKey × InstalledEntry} (hr : r ∈ a.table.rows) : a.get? r.1 = some r.2 := by
    rw [← get?_table]
    exact Table.get?_eq_some_iff.2 hr
  have hkey : r.1 = s.1 := hd r.1 s.1 r.2 s.2 (hget hr) (hget hs) hsame
  have hvalue := hget hr
  rw [hkey, hget hs] at hvalue
  exact Prod.ext hkey (Option.some.inj hvalue).symm

/-! ### Rows of one table -/

theorem Sound.nextHop_index (hs : a.Sound) {i : UInt64} {v : Held (Installed NextHop)}
    (h : a.nextHops.get? i = some v) : v.value.entry.index = i := by
  have hget : a.get? (.nextHop i) = some (view .nextHop v) := by rw [get?, h, Option.map_some]
  exact EntryKey.nextHop.inj (hs.stored _ _ hget).1

theorem Sound.group_id (hs : a.Sound) {i : UInt64} {v : Held (Installed NextHopGroup)}
    (h : a.groups.get? i = some v) : v.value.entry.id = i := by
  have hget : a.get? (.nextHopGroup i) = some (view .nextHopGroup v) := by rw [get?, h, Option.map_some]
  exact EntryKey.nextHopGroup.inj (hs.stored _ _ hget).1

theorem Sound.ipv4_destination (hs : a.Sound) {p : Cidr} {v : Held (Installed Ipv4Entry)}
    (h : a.ipv4.get? p = some v) : v.value.entry.destination = p := by
  have hget : a.get? (.ipv4 p) = some (view .ipv4 v) := by rw [get?, h, Option.map_some]
  exact EntryKey.ipv4.inj (hs.stored _ _ hget).1

/-! ### Numbers lead back -/

/-- In one of the tables a number picks out one row. -/
theorem Distinct.filter_values {κ ε : Type} [Ord κ] [Std.LawfulEqOrd κ] {t : HeldTable κ (Installed ε)}
    {f : ε → Entry} {key : κ → EntryKey} {i : κ} {v : Held (Installed ε)} (hd : a.Distinct)
    (hget : ∀ j, a.get? (key j) = (t.get? j).map (view f)) (inj : ∀ i j, key i = key j → i = j)
    (h : t.get? i = some v) : t.values.filter (fun w => w.value.deviceId = v.value.deviceId) = [v] := by
  refine Table.filter_values_eq_singleton h fun j w hj => ?_
  rw [decide_eq_true_eq]
  constructor
  · intro hsame
    have hv : a.get? (key i) = some (view f v) := by rw [hget, h, Option.map_some]
    have hw : a.get? (key j) = some (view f w) := by rw [hget, hj, Option.map_some]
    exact inj j i (hd _ _ _ _ hw hv hsame)
  · intro hji
    rw [hji, h] at hj
    rw [Option.some.inj hj]

/-- The number that stands for a next-hop leads back to it. -/
theorem Sound.nextHopsWith_nextHopId (hs : a.Sound) (hd : a.Distinct) {i : UInt64} (hi : a.contains (.nextHop i)) :
    ((a.telemetry ni).nextHopsWith (a.nextHopId i)).map (·.programmedIndex) = [i] := by
  rw [contains, get?, Option.isSome_map] at hi
  obtain ⟨v, hv⟩ := Option.isSome_iff_exists.1 hi
  have honly := hd.filter_values (f := .nextHop) (fun _ => rfl) (fun _ _ => EntryKey.nextHop.inj) hv
  have hid : a.nextHopId i = v.value.deviceId := by rw [nextHopId, hv, Option.map_some, Option.getD_some]
  simp only [hid, Telemetry.nextHopsWith, telemetry, List.filter_map, Function.comp_def, honly,
    List.map_singleton, hs.nextHop_index hv]

theorem Sound.groupsWith_groupId (hs : a.Sound) (hd : a.Distinct) {i : UInt64}
    (hi : a.contains (.nextHopGroup i)) :
    ((a.telemetry ni).groupsWith (a.groupId i)).map (·.programmedId) = [i] := by
  rw [contains, get?, Option.isSome_map] at hi
  obtain ⟨v, hv⟩ := Option.isSome_iff_exists.1 hi
  have honly := hd.filter_values (f := .nextHopGroup) (fun _ => rfl) (fun _ _ => EntryKey.nextHopGroup.inj) hv
  have hid : a.groupId i = v.value.deviceId := by rw [groupId, hv, Option.map_some, Option.getD_some]
  simp only [hid, Telemetry.groupsWith, telemetry, List.filter_map, Function.comp_def, honly,
    List.map_singleton, hs.group_id hv]

/-! ### References -/

theorem Sound.contains_member (hs : a.Sound) {i : UInt64} {v : Held (Installed NextHopGroup)}
    (h : a.groups.get? i = some v) {r : UInt64 × UInt64} (hr : r ∈ v.value.entry.members.rows) :
    a.contains (.nextHop r.1) := by
  have hget : a.get? (.nextHopGroup i) = some (view .nextHopGroup v) := by rw [get?, h, Option.map_some]
  exact hs.closed _ _ hget _ (List.mem_map_of_mem (List.mem_map_of_mem hr))

theorem Sound.contains_group (hs : a.Sound) {p : Cidr} {v : Held (Installed Ipv4Entry)}
    (h : a.ipv4.get? p = some v) : a.contains (.nextHopGroup v.value.entry.group) := by
  have hget : a.get? (.ipv4 p) = some (view .ipv4 v) := by rw [get?, h, Option.map_some]
  exact hs.closed _ _ hget _ (List.mem_singleton_self _)

/-- The members of a group item lead to the members of the client's group, with their weights. -/
theorem Sound.members (hs : a.Sound) (hd : a.Distinct) {i : UInt64} {v : Held (Installed NextHopGroup)}
    (h : a.groups.get? i = some v) :
    (v.value.entry.members.rows.map fun r => (⟨a.nextHopId r.1, r.2⟩ : Member)).map (fun m =>
      (((a.telemetry ni).nextHopsWith m.nextHop).map (·.programmedIndex), m.weight)) =
        v.value.entry.members.rows.map fun r => ([r.1], r.2) := by
  rw [List.map_map]
  refine List.map_congr_left fun r hr => ?_
  simp only [Function.comp_apply, hs.nextHopsWith_nextHopId hd (hs.contains_member h hr)]

theorem member?_eq {t : Telemetry} {m : Member} {i : UInt64}
    (h : (t.nextHopsWith m.nextHop).map (·.programmedIndex) = [i]) : t.member? m = some (i, m.weight) := by
  obtain ⟨n, hn, rfl⟩ := List.map_eq_singleton_iff.1 h
  rw [Telemetry.member?, hn, List.head?_cons, Option.map_some]

/-! ### A whole snapshot -/

theorem Sound.programmed_groups (hs : a.Sound) (hd : a.Distinct) :
    (a.telemetry ni).groups.map (fun g => Entry.nextHopGroup
      ⟨g.programmedId, Table.ofList (g.members.filterMap (a.telemetry ni).member?)⟩) =
    a.groups.values.map (fun v => .nextHopGroup v.value.entry) := by
  rw [telemetry, List.map_map]
  refine List.map_congr_left fun v hv => ?_
  obtain ⟨i, hi⟩ := Table.mem_values_iff.1 hv
  have hmembers : (v.value.entry.members.rows.map fun r => (⟨a.nextHopId r.1, r.2⟩ : Member)).filterMap
      (a.telemetry ni).member? = v.value.entry.members.rows := by
    rw [List.filterMap_map]
    refine (List.filterMap_congr fun r hr => ?_).trans List.filterMap_some
    exact member?_eq (hs.nextHopsWith_nextHopId hd (hs.contains_member hi hr))
  simp only [Function.comp_apply]
  rw [telemetry] at hmembers
  rw [hmembers, Table.ofList_rows]

theorem Sound.programmed_ipv4 (hs : a.Sound) (hd : a.Distinct) :
    (a.telemetry ni).ipv4.filterMap (fun p => ((a.telemetry ni).groupsWith p.group).head?.map
      fun g => Entry.ipv4 ⟨p.destination, g.programmedId⟩) =
    a.ipv4.values.map (fun v => .ipv4 v.value.entry) := by
  have hipv4 : (a.telemetry ni).ipv4 =
      a.ipv4.values.map (fun v => ⟨v.value.entry.destination, a.groupId v.value.entry.group⟩) := rfl
  rw [hipv4, List.filterMap_map, ← List.filterMap_eq_map]
  refine List.filterMap_congr fun v hv => ?_
  obtain ⟨p, hp⟩ := Table.mem_values_iff.1 hv
  have hgroup : ((a.telemetry ni).groupsWith (a.groupId v.value.entry.group)).map (·.programmedId) =
      [v.value.entry.group] := hs.groupsWith_groupId hd (hs.contains_group hp)
  obtain ⟨g, hg, hid⟩ := List.map_eq_singleton_iff.1 hgroup
  simp only [Function.comp_apply, hg, List.head?_cons, Option.map_some, hid]

theorem Sound.telemetry_mirrors (hs : a.Sound) (hd : a.Distinct) (ni : String) : (a.telemetry ni).Mirrors a := by
  have hkeys : (a.telemetry ni).keys = a.entries.map (·.value.entry.key) := by
    simp only [Telemetry.keys, telemetry, entries, List.map_append, List.map_map]
    rfl
  constructor
  case keys => exact hkeys
  case distinct =>
    rw [hkeys, hs.keys_entries]
    exact a.installed.keys_nodup
  case nextHops =>
    intro n hn
    obtain ⟨v, hv, rfl⟩ := List.mem_map.1 hn
    obtain ⟨i, hi⟩ := Table.mem_values_iff.1 hv
    refine ⟨view .nextHop v, ?_, rfl⟩
    dsimp only
    rw [hs.nextHop_index hi, get?, hi, Option.map_some]
  case groups =>
    intro g hg
    obtain ⟨v, hv, rfl⟩ := List.mem_map.1 hg
    obtain ⟨i, hi⟩ := Table.mem_values_iff.1 hv
    refine ⟨view .nextHopGroup v, v.value.entry, ?_, rfl, rfl, hs.members hd hi⟩
    dsimp only
    rw [hs.group_id hi, get?, hi, Option.map_some]
  case ipv4 =>
    intro p hp
    obtain ⟨v, hv, rfl⟩ := List.mem_map.1 hp
    obtain ⟨q, hq⟩ := Table.mem_values_iff.1 hv
    refine ⟨view .ipv4 v, v.value.entry, ?_, rfl, hs.groupsWith_groupId hd (hs.contains_group hq)⟩
    dsimp only
    rw [hs.ipv4_destination hq, get?, hq, Option.map_some]
  case programmed =>
    rw [Telemetry.programmed, hs.programmed_groups hd, hs.programmed_ipv4 hd]
    simp only [telemetry, entries, List.map_append, List.map_map]
    rfl

/-! ### Looking up an item -/

/-- Of a group that is installed, a snapshot shows the weights. -/
theorem Sound.group?_telemetry (hs : a.Sound) {id : UInt64} {h : InstalledEntry} {g : NextHopGroup}
    (hk : a.get? (.nextHopGroup id) = some h) (he : h.value.entry = .nextHopGroup g) :
    ((a.telemetry ni).group? id).map (·.weights) = some g.members.values := by
  obtain ⟨v, hv, rfl⟩ := Option.map_eq_some_iff.1 hk
  obtain rfl : v.value.entry = g := Entry.nextHopGroup.inj he
  have honly : a.groups.values.filter (fun w => w.value.entry.id == id) = [v] :=
    Table.filter_values_eq_singleton hv fun j w hj => by rw [hs.group_id hj, beq_iff_eq]
  rw [Telemetry.group?, telemetry, ← List.head?_filter, List.filter_map, Function.comp_def]
  dsimp only
  rw [honly, List.map_singleton, List.head?_cons, Option.map_some, GroupItem.weights, List.map_map]
  rfl

/-- A route that is installed is in the snapshot. -/
theorem Sound.ipv4?_telemetry (hs : a.Sound) {p : Cidr} (hk : a.contains (.ipv4 p)) :
    ((a.telemetry ni).ipv4? p).isSome := by
  rw [contains, get?, Option.isSome_map] at hk
  obtain ⟨v, hv⟩ := Option.isSome_iff_exists.1 hk
  rw [Telemetry.ipv4?, List.find?_isSome]
  refine ⟨_, List.mem_map.2 ⟨v, Table.mem_values_iff.2 ⟨p, hv⟩, rfl⟩, ?_⟩
  rw [hs.ipv4_destination hv, beq_self_eq_true]

end Aft

end RouteProgramming
