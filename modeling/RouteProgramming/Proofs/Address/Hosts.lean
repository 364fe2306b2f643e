import RouteProgramming.Proofs.Address.Prefix

/-! What a prefix contains, bit by bit, and its hosts one by one. An address is
contained if it is of the prefix's family and has its first bits. The hosts that
are still to come are the numbers from the next one up to the stop, so that what
has been taken and what is left make up the whole at every step; and of an IPv4
prefix the whole is the addresses contained, from the lowest to the highest. -/

namespace RouteProgramming

/-- The bit at a place, the most significant one first. -/
def Address.bit (a : Address) (i : Nat) : Bool :=
  match a with
  | .v4 a => a.bits.getMsbD i
  | .v6 a => a.bits.getMsbD i

theorem Ipv4.ofNat_toNat (a : Ipv4) : ofNat a.toNat = a := by
  rw [ofNat, toNat, BitVec.ofNat_toNat, BitVec.setWidth_eq]

namespace Cidr

/-! ### The first bits -/

theorem getMsbD_and_mask {width n : Nat} (hn : n ≤ width) (x : BitVec width) (i : Nat) :
    (x &&& mask width n).getMsbD i = (x.getMsbD i && decide (i < n)) := by
  have hplace : i + (width - n) < width ↔ i < n := by omega
  rw [mask, BitVec.getMsbD_and, BitVec.getMsbD_shiftLeft, BitVec.getMsbD_allOnes, decide_eq_decide.mpr hplace]

theorem and_mask_eq_iff {width n : Nat} (hn : n ≤ width) {x y : BitVec width} :
    x &&& mask width n = y &&& mask width n ↔ ∀ i < n, x.getMsbD i = y.getMsbD i := by
  constructor
  · intro h i hi
    have hbit := congrArg (BitVec.getMsbD · i) h
    simpa [getMsbD_and_mask hn, hi] using hbit
  · intro h
    refine BitVec.eq_of_getMsbD_eq fun i _ => ?_
    rw [getMsbD_and_mask hn, getMsbD_and_mask hn]
    by_cases hi : i < n
    · rw [h i hi]
    · simp [hi]

/-- A prefix contains the addresses of its family that agree with its own on the first bits. -/
theorem contains_iff {c : Cidr} {a : Address} :
    c.contains a ↔ a.isV4 = c.isV4 ∧ ∀ i < c.length, a.bit i = c.address.bit i := by
  obtain ⟨b, n, hn⟩ := c
  rw [contains, Bool.and_eq_true, beq_iff_eq, beq_iff_eq]
  refine and_congr_right fun hfamily => ?_
  cases a with
  | v4 a =>
    cases b with
    | v4 b =>
      have hlength : n ≤ 32 := hn
      simpa [masked, Address.bit] using and_mask_eq_iff hlength
    | v6 b => cases hfamily
  | v6 a =>
    cases b with
    | v4 b => cases hfamily
    | v6 b =>
      have hlength : n ≤ 128 := hn
      simpa [masked, Address.bit] using and_mask_eq_iff hlength

theorem network_network (c : Cidr) : c.network.network = c.network := by
  simp only [network, masked_masked]

end Cidr

/-! ### Taking hosts -/

namespace Hosts

variable {h : Hosts} {n : Nat}

/-- All hosts that are still to come. -/
def toList (h : Hosts) : List Ipv4 := (h.take h.left).1

/-- The hosts behind the next one. -/
def rest (h : Hosts) : Hosts := ⟨h.next + 1, h.stop⟩

theorem next?_of_lt (hlt : h.next < h.stop) : h.next? = some (Ipv4.ofNat h.next, h.rest) := if_pos hlt

theorem next?_of_not_lt (hlt : ¬ h.next < h.stop) : h.next? = none := if_neg hlt

theorem left_of_lt (hlt : h.next < h.stop) : h.left = h.rest.left + 1 := by
  simp only [left, rest]
  omega

theorem left_of_not_lt (hlt : ¬ h.next < h.stop) : h.left = 0 := Nat.sub_eq_zero_of_le (Nat.le_of_not_lt hlt)

theorem take_of_lt (hlt : h.next < h.stop) (n : Nat) :
    h.take (n + 1) = (Ipv4.ofNat h.next :: (h.rest.take n).1, (h.rest.take n).2) := by
  rw [take, next?_of_lt hlt]

theorem take_of_not_lt (hlt : ¬ h.next < h.stop) (n : Nat) : h.take n = ([], h) := by
  cases n with
  | zero => rfl
  | succ n => rw [take, next?_of_not_lt hlt]

theorem toList_of_lt (hlt : h.next < h.stop) : h.toList = Ipv4.ofNat h.next :: h.rest.toList := by
  rw [toList, left_of_lt hlt, take_of_lt hlt]
  rfl

theorem toList_of_not_lt (hlt : ¬ h.next < h.stop) : h.toList = [] := by
  rw [toList, take_of_not_lt hlt]

/-- There is a next host as long as there are some to come. -/
theorem next?_eq_none_iff : h.next? = none ↔ h.toList = [] := by
  by_cases hlt : h.next < h.stop
  · rw [next?_of_lt hlt, toList_of_lt hlt]
    exact iff_of_false nofun nofun
  · exact iff_of_true (next?_of_not_lt hlt) (toList_of_not_lt hlt)

theorem toList_eq (h : Hosts) : h.toList = (List.range h.left).map fun i => Ipv4.ofNat (h.next + i) := by
  induction hleft : h.left generalizing h with
  | zero => rw [toList, hleft]; rfl
  | succ k ih =>
    have hlt : h.next < h.stop := Nat.lt_of_sub_eq_succ hleft
    have hrest : h.rest.left = k := Nat.succ.inj ((left_of_lt hlt).symm.trans hleft)
    rw [toList_of_lt hlt, ih _ hrest, List.range_succ_eq_map, List.map_cons, List.map_map]
    simp [rest, Function.comp_def, Nat.add_assoc, Nat.add_comm 1]

theorem length_toList (h : Hosts) : h.toList.length = h.left := by simp [toList_eq]

/-- What has been taken and what is left are all the hosts. -/
theorem take_append_toList (h : Hosts) (n : Nat) : (h.take n).1 ++ (h.take n).2.toList = h.toList := by
  induction n generalizing h with
  | zero => rfl
  | succ n ih =>
    by_cases hlt : h.next < h.stop
    · rw [take_of_lt hlt, toList_of_lt hlt, ← ih h.rest]
      rfl
    · rw [take_of_not_lt hlt]
      rfl

theorem left_take (h : Hosts) (n : Nat) : (h.take n).2.left = h.left - n := by
  induction n generalizing h with
  | zero => rfl
  | succ n ih =>
    by_cases hlt : h.next < h.stop
    · rw [take_of_lt hlt, ih, left_of_lt hlt, Nat.add_sub_add_right]
    · rw [take_of_not_lt hlt, left_of_not_lt hlt, Nat.zero_sub]

theorem next_le_stop_take (hle : h.next ≤ h.stop) (n : Nat) : (h.take n).2.next ≤ (h.take n).2.stop := by
  induction n generalizing h with
  | zero => exact hle
  | succ n ih =>
    by_cases hlt : h.next < h.stop
    · rw [take_of_lt hlt]
      exact ih hlt
    · rwa [take_of_not_lt hlt]

theorem toNat_toList (hstop : h.stop ≤ 4294967296) :
    h.toList.map Ipv4.toNat = (List.range h.left).map (h.next + ·) := by
  rw [toList_eq, List.map_map]
  refine List.map_congr_left fun i hi => Ipv4.toNat_ofNat ?_
  have hlt : i < h.stop - h.next := List.mem_range.mp hi
  omega

theorem mem_toList_iff (hstop : h.stop ≤ 4294967296) {a : Ipv4} :
    a ∈ h.toList ↔ h.next ≤ a.toNat ∧ a.toNat < h.stop := by
  rw [toList_eq, List.mem_map]
  constructor
  · rintro ⟨i, hi, rfl⟩
    have hlt : i < h.stop - h.next := List.mem_range.mp hi
    rw [Ipv4.toNat_ofNat (by omega)]
    omega
  · rintro ⟨hge, hlt⟩
    refine ⟨a.toNat - h.next, List.mem_range.mpr ?_, ?_⟩
    · rw [left]
      omega
    · rw [Nat.add_sub_cancel' hge, Ipv4.ofNat_toNat]

/-- The hosts come in order and none comes twice. -/
theorem pairwise_toList (hstop : h.stop ≤ 4294967296) : h.toList.Pairwise (·.toNat < ·.toNat) := by
  rw [← List.pairwise_map (R := (· < ·)), toNat_toList hstop, List.pairwise_map]
  exact List.pairwise_lt_range.imp fun hlt => Nat.add_lt_add_left hlt _

end Hosts

/-! ### The hosts of a prefix -/

namespace Cidr

variable {c : Cidr}

theorem hosts_v6 (h : c.isV4 = false) : c.hosts = ⟨0, 0⟩ := by
  obtain ⟨b, n, hn⟩ := c
  cases b with
  | v4 b => cases h
  | v6 b => rfl

/-- The numbers of the hosts do not go beyond the last IPv4 address. -/
theorem hosts_bounds (c : Cidr) : c.hosts.next ≤ c.hosts.stop ∧ c.hosts.stop ≤ 4294967296 := by
  cases h : c.isV4 with
  | true =>
    obtain ⟨block, hroom, hhosts, -⟩ := exists_hosts h
    rw [Nat.add_mul, Nat.one_mul] at hroom
    rw [hhosts]
    exact ⟨Nat.le_add_right _ _, hroom⟩
  | false =>
    rw [hosts_v6 h]
    exact ⟨Nat.le_refl 0, Nat.zero_le _⟩

/-- An IPv4 prefix has as many hosts as its free bits can tell apart. -/
theorem left_hosts (h : c.isV4) : c.hosts.left = blockSize c.length := by
  obtain ⟨block, -, hhosts, -⟩ := exists_hosts h
  rw [hhosts, Hosts.left, Nat.add_sub_cancel_left]

theorem mem_hosts_iff (h : c.isV4) {a : Ipv4} : a ∈ c.hosts.toList ↔ c.contains (.v4 a) := by
  obtain ⟨block, -, hhosts, hcontains⟩ := exists_hosts h
  have hpos := blockSize_pos c.length
  rw [Hosts.mem_toList_iff c.hosts_bounds.2, hcontains, Nat.div_eq_iff hpos, hhosts]
  dsimp only
  omega

/-- The hosts of an IPv4 prefix are the addresses it contains, of either family. -/
theorem contains_iff_mem_hosts (h : c.isV4) {a : Address} : c.contains a ↔ ∃ b ∈ c.hosts.toList, a = .v4 b := by
  constructor
  · intro ha
    cases a with
    | v4 a => exact ⟨a, (mem_hosts_iff h).mpr ha, rfl⟩
    | v6 a =>
      have hfamily : false = c.isV4 := (contains_iff.mp ha).1
      rw [h] at hfamily
      cases hfamily
  · rintro ⟨b, hb, rfl⟩
    exact (mem_hosts_iff h).mp hb

end Cidr

end RouteProgramming
