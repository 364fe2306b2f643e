import RouteProgramming.Cidr

/-! IPv4 prefixes in numbers. Clearing the host bits rounds an address down to
a multiple of the prefix's size, so that a prefix contains the addresses of one
block, and its hosts are the addresses of the block in order. -/

namespace RouteProgramming

namespace Ipv4

theorem toNat_lt (a : Ipv4) : a.toNat < 4294967296 := a.bits.isLt

theorem toNat_ofNat {n : Nat} (h : n < 4294967296) : (ofNat n).toNat = n := by
  rw [toNat, ofNat, BitVec.toNat_ofNat, Nat.mod_eq_of_lt h]

end Ipv4

namespace Cidr

theorem and_mask {width : Nat} (x : BitVec width) (n : Nat) :
    x &&& mask width n = (x >>> (width - n)) <<< (width - n) := by
  refine BitVec.eq_of_getLsbD_eq fun i hi => ?_
  simp only [mask, BitVec.getLsbD_and, BitVec.getLsbD_shiftLeft, BitVec.getLsbD_ushiftRight, BitVec.getLsbD_allOnes]
  by_cases h : i < width - n
  · simp [h]
  · have hsum : width - n + (i - (width - n)) = i := by omega
    have hlt : i - (width - n) < width := by omega
    simp [h, hi, hlt, hsum]

/-- The number of addresses that agree on the first `n` bits. -/
def blockSize (n : Nat) : Nat := Nat.pow 2 (32 - n)

theorem blockSize_pos (n : Nat) : 0 < blockSize n := Nat.two_pow_pos _

theorem toNat_masked (n : Nat) (a : Ipv4) :
    (a.bits &&& mask 32 n).toNat = a.toNat / blockSize n * blockSize n := by
  have hle : a.toNat / blockSize n * blockSize n ≤ a.toNat := Nat.div_mul_le_self ..
  rw [and_mask, BitVec.toNat_shiftLeft, BitVec.toNat_ushiftRight, Nat.shiftLeft_eq, Nat.shiftRight_eq_div_pow]
  exact Nat.mod_eq_of_lt (Nat.lt_of_le_of_lt hle a.toNat_lt)

theorem masked_v4 (n : Nat) (a : Ipv4) : masked n (.v4 a) = .v4 (.ofNat (a.toNat / blockSize n * blockSize n)) := by
  rw [← toNat_masked, masked, Ipv4.ofNat, BitVec.ofNat_toNat, BitVec.setWidth_eq]

/-- Two addresses agree on the first bits if they are in one block. -/
theorem masked_eq_iff {n : Nat} {a b : Ipv4} :
    masked n (.v4 a) = masked n (.v4 b) ↔ a.toNat / blockSize n = b.toNat / blockSize n := by
  constructor
  · intro h
    have hbits : a.bits &&& mask 32 n = b.bits &&& mask 32 n := by simpa [masked] using h
    have hnat := congrArg BitVec.toNat hbits
    rw [toNat_masked, toNat_masked] at hnat
    exact Nat.eq_of_mul_eq_mul_right (blockSize_pos n) hnat
  · intro h
    rw [masked_v4, masked_v4, h]

/-- Of the addresses that agree with it on the first bits, a prefix without host bits has the lowest. -/
theorem address_of_contains {c : Cidr} {a : Address} (h : c.contains a) (hc : c = c.network) :
    c.address = masked c.length a := by
  rw [contains, Bool.and_eq_true, beq_iff_eq, beq_iff_eq] at h
  rw [h.2]
  exact congrArg address hc

/-- Prefixes without host bits that have an address in common and are of the same length are the same. -/
theorem eq_of_contains {c d : Cidr} {a : Address} (hc : c.contains a) (hd : d.contains a) (hcn : c = c.network)
    (hdn : d = d.network) (hlen : c.length = d.length) : c = d := by
  have haddr : c.address = d.address := by rw [address_of_contains hc hcn, address_of_contains hd hdn, hlen]
  cases c
  cases d
  cases haddr
  cases hlen
  rfl

theorem isV4_network (c : Cidr) : c.network.isV4 = c.isV4 := by
  cases c with
  | mk address length _ => cases address <;> rfl

theorem masked_masked (n : Nat) (a : Address) : masked n (masked n a) = masked n a := by
  cases a <;> simp [masked, BitVec.and_assoc]

/-- Host bits play no part in what a prefix contains. -/
theorem contains_network (c : Cidr) (a : Address) : c.network.contains a = c.contains a := by
  have hfamily : c.network.address.isV4 = c.address.isV4 := c.isV4_network
  rw [contains, contains, hfamily]
  simp only [network, masked_masked]

/-! ### Hosts -/

section Hosts

variable {c : Cidr}

theorem exists_hosts (h : c.isV4) : ∃ block, (block + 1) * blockSize c.length ≤ 4294967296 ∧
    c.hosts = ⟨block * blockSize c.length, block * blockSize c.length + blockSize c.length⟩ ∧
    ∀ a : Ipv4, c.contains (.v4 a) ↔ a.toNat / blockSize c.length = block := by
  obtain ⟨address, length, hle⟩ := c
  cases address with
  | v6 b => contradiction
  | v4 b =>
    have hlength : length ≤ 32 := hle
    have hblocks : blockSize length * Nat.pow 2 length = 4294967296 := by
      have hpow : 2 ^ (32 - length) * 2 ^ length = 2 ^ 32 := by rw [← Nat.pow_add, Nat.sub_add_cancel hlength]
      exact hpow
    have hroom : (b.toNat / blockSize length + 1) * blockSize length ≤ 4294967296 := by
      have hblock : b.toNat / blockSize length < Nat.pow 2 length :=
        Nat.div_lt_of_lt_mul (by rw [hblocks]; exact b.toNat_lt)
      rw [← hblocks, Nat.mul_comm]
      exact Nat.mul_le_mul_left _ (Nat.succ_le_of_lt hblock)
    refine ⟨b.toNat / blockSize length, hroom, ?_, fun a => ?_⟩
    · have hbase : b.toNat / blockSize length * blockSize length < 4294967296 := by
        have := blockSize_pos length
        rw [Nat.add_mul] at hroom
        omega
      simp only [hosts, masked_v4, Ipv4.toNat_ofNat hbase]
      rfl
    · rw [contains, Bool.and_eq_true, beq_iff_eq, beq_iff_eq, masked_eq_iff]
      exact and_iff_right rfl

theorem hosts_left_pos (h : c.isV4) : 0 < c.hosts.left := by
  obtain ⟨block, -, hhosts, -⟩ := exists_hosts h
  rw [hhosts, Hosts.left, Nat.add_sub_cancel_left]
  exact blockSize_pos _

/-- Every host of a prefix lies in it. -/
theorem contains_host (h : c.isV4) {j : Nat} (hj : j < c.hosts.left) :
    c.contains (.v4 (.ofNat (c.hosts.next + j))) := by
  obtain ⟨block, hroom, hhosts, hcontains⟩ := exists_hosts h
  rw [hhosts, Hosts.left, Nat.add_sub_cancel_left] at hj
  have hlt : block * blockSize c.length + j < 4294967296 := by
    rw [Nat.add_mul] at hroom
    omega
  rw [hcontains, hhosts, Ipv4.toNat_ofNat hlt, Nat.mul_comm, Nat.mul_add_div (blockSize_pos _),
    Nat.div_eq_of_lt hj, Nat.add_zero]

end Hosts

end Cidr

end RouteProgramming
