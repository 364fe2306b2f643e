import RouteProgramming.Proofs.Address.Hosts

/-! The arithmetic of prefixes on machine words. A length has 8 bits, the places
to clear are counted in 32, and the numbers of hosts have 64; a difference below
zero, a sum beyond its word and a shift by the width of its word or more have no
result. Every step of an accepted prefix has one, and it is the one that numbers
without bounds give: a mask is only made for a length of the same family, the
shift by a whole width is caught, and the hosts end at 2^32 at the latest. -/

namespace RouteProgramming

/-! ### Operations -/

namespace Word

variable {w v : Nat}

/-- A difference, unless it is below zero. -/
def minus? (x y : BitVec w) : Option (BitVec w) := if x.usubOverflow y then none else some (x - y)

/-- A sum, unless the word cannot hold it. -/
def plus? (x y : BitVec w) : Option (BitVec w) := if x.uaddOverflow y then none else some (x + y)

/-- A shift by less than the width. -/
def shiftLeft? (x : BitVec w) (n : BitVec v) : Option (BitVec w) := if n.toNat < w then some (x <<< n.toNat) else none

/-- A word keeps a number up to one that it can hold. -/
theorem toNat_ofNat {n k : Nat} (hle : n ≤ k) (hroom : k < Nat.pow 2 w) : (BitVec.ofNat w n).toNat = n := by
  rw [BitVec.toNat_ofNat]
  exact Nat.mod_eq_of_lt (Nat.lt_of_le_of_lt hle hroom)

theorem minus?_of_le {x y : BitVec w} (h : y.toNat ≤ x.toNat) :
    minus? x y = some (BitVec.ofNat w (x.toNat - y.toNat)) := by
  have hle : y ≤ x := h
  have hroom : x.usubOverflow y = false := decide_eq_false (Nat.not_lt.mpr h)
  rw [minus?, hroom, if_neg Bool.false_ne_true, ← BitVec.toNat_sub_of_le hle, BitVec.ofNat_toNat, BitVec.setWidth_eq]

theorem plus?_of_lt {x y : BitVec w} (h : x.toNat + y.toNat < Nat.pow 2 w) :
    plus? x y = some (BitVec.ofNat w (x.toNat + y.toNat)) := by
  have hroom : x.uaddOverflow y = false := decide_eq_false (Nat.not_le.mpr h)
  rw [plus?, hroom, if_neg Bool.false_ne_true, BitVec.ofNat_add, BitVec.ofNat_toNat, BitVec.ofNat_toNat,
    BitVec.setWidth_eq, BitVec.setWidth_eq]

end Word

/-! ### Prefixes -/

theorem Address.width_eq {a b : Address} (h : a.isV4 = b.isV4) : a.width = b.width := by
  cases a with
  | v4 a =>
    cases b with
    | v4 b => rfl
    | v6 b => cases h
  | v6 a =>
    cases b with
    | v4 b => cases h
    | v6 b => rfl

namespace Cidr

open Word

def lengthWord (c : Cidr) : BitVec 8 := BitVec.ofNat 8 c.length

/-- How many places a length leaves of a width. -/
def free? (width : BitVec 32) (length : BitVec 8) : Option (BitVec 32) := minus? width (length.setWidth 32)

/-- A shift by the whole width clears the mask. -/
def mask? (width : Nat) (length : BitVec 8) : Option (BitVec width) :=
  (free? (BitVec.ofNat 32 width) length).map fun n => (shiftLeft? (BitVec.allOnes width) n).getD 0

def masked? (length : BitVec 8) : Address → Option Address
  | .v4 a => (mask? 32 length).map fun m => .v4 ⟨a.bits &&& m⟩
  | .v6 a => (mask? 128 length).map fun m => .v6 ⟨a.bits &&& m⟩

/-- Addresses of the other family are not masked. -/
def contains? (c : Cidr) (a : Address) : Option Bool :=
  if a.isV4 = c.address.isV4 then do
    let candidate ← masked? c.lengthWord a
    let own ← masked? c.lengthWord c.address
    some (candidate == own)
  else some false

end Cidr

/-- The numbers of the hosts that are still to come, as words. -/
structure HostWords where
  next : BitVec 64
  stop : BitVec 64

namespace HostWords

open Word

/-- The same numbers without bounds. -/
def hosts (h : HostWords) : Hosts := ⟨h.next.toNat, h.stop.toNat⟩

/-- The next host, if there is one; its number is cut down to 32 bits. -/
def next? (h : HostWords) : Option (Option (Ipv4 × HostWords)) :=
  if h.stop ≤ h.next then some none
  else (plus? h.next 1).map fun next => some (⟨h.next.setWidth 32⟩, ⟨next, h.stop⟩)

def take? : Nat → HostWords → Option (List Ipv4 × HostWords)
  | 0, h => some ([], h)
  | n + 1, h => do
    match ← h.next? with
    | none => some ([], h)
    | some (a, h) =>
      let (rest, h) ← take? n h
      some (a :: rest, h)

def left? (h : HostWords) : Option (BitVec 64) := minus? h.stop h.next

end HostWords

namespace Cidr

open Word

def hosts? (c : Cidr) : Option HostWords := do
  match ← masked? c.lengthWord c.address with
  | .v4 base =>
    let size ← shiftLeft? (1 : BitVec 64) (← free? 32 c.lengthWord)
    let stop ← plus? (base.bits.setWidth 64) size
    some ⟨base.bits.setWidth 64, stop⟩
  | .v6 _ => some ⟨0, 0⟩

/-! ### Every step has its result -/

variable {c : Cidr}

theorem free?_eq {width n : Nat} (hn : n ≤ width) (hwidth : width ≤ 128) :
    free? (BitVec.ofNat 32 width) (BitVec.ofNat 8 n) = some (BitVec.ofNat 32 (width - n)) := by
  have hlength : ((BitVec.ofNat 8 n).setWidth 32).toNat = n := by
    rw [BitVec.toNat_setWidth_of_le (by decide)]
    exact toNat_ofNat (Nat.le_trans hn hwidth) (by decide)
  have hword : (BitVec.ofNat 32 width).toNat = width := toNat_ofNat hwidth (by decide)
  rw [free?, minus?_of_le (by omega), hlength, hword]

theorem mask?_eq {width n : Nat} (hn : n ≤ width) (hwidth : width ≤ 128) :
    mask? width (BitVec.ofNat 8 n) = some (mask width n) := by
  have hfree : (BitVec.ofNat 32 (width - n)).toNat = width - n :=
    toNat_ofNat (Nat.le_trans (Nat.sub_le width n) hwidth) (by decide)
  rw [mask?, free?_eq hn hwidth, Option.map_some, shiftLeft?, hfree, mask]
  split
  case isTrue => rfl
  case isFalse hall =>
    rw [BitVec.shiftLeft_eq_zero (Nat.le_of_not_lt hall)]
    rfl

/-- The length of a prefix of the other family may leave the range. -/
example : mask? 32 (BitVec.ofNat 8 128) = none := by decide

/-- A mask has a result for the addresses of the prefix's own family. -/
theorem masked?_eq {a : Address} (h : a.isV4 = c.address.isV4) :
    masked? c.lengthWord a = some (masked c.length a) := by
  have hlength : c.length ≤ a.width := Address.width_eq h ▸ c.length_le
  cases a with
  | v4 a =>
    have h32 : c.length ≤ 32 := hlength
    rw [masked?, lengthWord, mask?_eq h32 (by decide)]
    rfl
  | v6 a =>
    have h128 : c.length ≤ 128 := hlength
    rw [masked?, lengthWord, mask?_eq h128 (by decide)]
    rfl

theorem contains?_eq (c : Cidr) (a : Address) : c.contains? a = some (c.contains a) := by
  rw [contains?, contains]
  split
  case isTrue h =>
    rw [masked?_eq h, masked?_eq rfl, h, beq_self_eq_true, Bool.true_and]
    rfl
  case isFalse h => rw [beq_eq_false_iff_ne.mpr h, Bool.false_and]

/-- The size is made by a shift of 32 places at most, in a word of 64. -/
theorem size?_eq (n : Nat) :
    shiftLeft? (1 : BitVec 64) (BitVec.ofNat 32 (32 - n)) = some (BitVec.ofNat 64 (blockSize n)) := by
  have hfree : (BitVec.ofNat 32 (32 - n)).toNat = 32 - n := toNat_ofNat (Nat.sub_le 32 n) (by decide)
  have hshift : 32 - n < 64 := Nat.lt_of_le_of_lt (Nat.sub_le 32 n) (by decide)
  rw [shiftLeft?, hfree, if_pos hshift, blockSize]
  refine congrArg some (BitVec.eq_of_toNat_eq ?_)
  rw [BitVec.toNat_shiftLeft, BitVec.toNat_ofNat, Nat.shiftLeft_eq]
  exact congrArg (· % _) (Nat.one_mul _)

theorem hosts?_eq (c : Cidr) : ∃ words, c.hosts? = some words ∧ words.hosts = c.hosts := by
  have hmasked : masked? c.lengthWord c.address = some (masked c.length c.address) := masked?_eq rfl
  have hbounds := c.hosts_bounds.2
  rw [hosts] at hbounds ⊢
  rw [hosts?, hmasked]
  cases hbase : masked c.length c.address with
  | v6 base => exact ⟨⟨0, 0⟩, rfl, rfl⟩
  | v4 base =>
    have hlength : c.length ≤ 32 := by
      have hwidth := width_masked c.length c.address
      rw [hbase] at hwidth
      exact Nat.le_trans c.length_le (Nat.le_of_eq hwidth.symm)
    have hfree : free? 32 c.lengthWord = some (BitVec.ofNat 32 (32 - c.length)) := free?_eq hlength (by decide)
    rw [hbase] at hbounds
    have hend : base.toNat + blockSize c.length ≤ 4294967296 := hbounds
    have hnext : (base.bits.setWidth 64).toNat = base.toNat := BitVec.toNat_setWidth_of_le (by decide)
    have hsize : (BitVec.ofNat 64 (blockSize c.length)).toNat = blockSize c.length :=
      toNat_ofNat (Nat.le_trans (Nat.le_add_left _ _) hend) (by decide)
    have hroom : (base.bits.setWidth 64).toNat + (BitVec.ofNat 64 (blockSize c.length)).toNat < Nat.pow 2 64 := by
      rw [hnext, hsize]
      exact Nat.lt_of_le_of_lt hend (by decide)
    have hstop : (BitVec.ofNat 64 (base.toNat + blockSize c.length)).toNat = base.toNat + blockSize c.length :=
      toNat_ofNat hend (by decide)
    refine ⟨⟨base.bits.setWidth 64, BitVec.ofNat 64 (base.toNat + blockSize c.length)⟩, ?_, ?_⟩
    · simp only [Option.bind_eq_bind, Option.bind_some, hfree, size?_eq, plus?_of_lt hroom, hnext, hsize]
    · rw [HostWords.hosts, hnext, hstop]
      rfl

end Cidr

namespace HostWords

open Word

variable {h : HostWords}

theorem next?_of_lt (hlt : h.hosts.next < h.hosts.stop) :
    ∃ rest, h.next? = some (some (Ipv4.ofNat h.hosts.next, rest)) ∧ rest.hosts = h.hosts.rest := by
  have hroom : h.next.toNat + (1 : BitVec 64).toNat < Nat.pow 2 64 := Nat.lt_of_le_of_lt hlt h.stop.isLt
  have hmore : ¬ h.stop ≤ h.next := Nat.not_le.mpr hlt
  refine ⟨⟨BitVec.ofNat 64 (h.next.toNat + 1), h.stop⟩, ?_, ?_⟩
  · rw [next?, if_neg hmore, plus?_of_lt hroom]
    rfl
  · have hnext : (BitVec.ofNat 64 (h.next.toNat + 1)).toNat = h.next.toNat + 1 := toNat_ofNat (Nat.le_refl _) hroom
    rw [hosts, hnext]
    rfl

theorem next?_of_not_lt (hlt : ¬ h.hosts.next < h.hosts.stop) : h.next? = some none :=
  if_pos (Nat.le_of_not_lt hlt)

/-- Any number of steps has a result. -/
theorem take?_eq (h : HostWords) (n : Nat) :
    ∃ rest, h.take? n = some ((h.hosts.take n).1, rest) ∧ rest.hosts = (h.hosts.take n).2 := by
  induction n generalizing h with
  | zero => exact ⟨h, rfl, rfl⟩
  | succ n ih =>
    by_cases hlt : h.hosts.next < h.hosts.stop
    · obtain ⟨rest, hnext, hrest⟩ := next?_of_lt hlt
      obtain ⟨last, htake, hlast⟩ := ih rest
      rw [hrest] at htake hlast
      refine ⟨last, ?_, ?_⟩
      · rw [take?, hnext, Option.bind_eq_bind, Option.bind_some]
        dsimp only
        rw [htake, Hosts.take_of_lt hlt]
        rfl
      · rw [hlast, Hosts.take_of_lt hlt]
    · refine ⟨h, ?_, ?_⟩
      · rw [take?, next?_of_not_lt hlt, Hosts.take_of_not_lt hlt]
        rfl
      · rw [Hosts.take_of_not_lt hlt]

theorem left?_eq (hle : h.hosts.next ≤ h.hosts.stop) : h.left? = some (BitVec.ofNat 64 h.hosts.left) :=
  minus?_of_le hle

end HostWords

/-! ### The whole -/

namespace Cidr

/-- A prefix contains the addresses of its family with its first bits, and so does its network, which is its own. The
hosts of an IPv4 prefix are the addresses it contains, from the lowest to the highest, and an IPv6 prefix has none; at
any step those taken and those left are all of them, and the count is that of those left. On words every step has a
result, and the same one. -/
theorem arithmetic_exact (c : Cidr) :
    (∀ a, c.contains? a = some (c.contains a) ∧
      (c.contains a ↔ a.isV4 = c.isV4 ∧ ∀ i < c.length, a.bit i = c.address.bit i)) ∧
    masked? c.lengthWord c.address = some c.network.address ∧ c.network.length = c.length ∧
    c.network.network = c.network ∧ (∀ a, c.network.contains a = c.contains a) ∧
    (c.isV4 → c.hosts.toList.Pairwise (·.toNat < ·.toNat) ∧ c.hosts.toList.length = Nat.pow 2 (32 - c.length) ∧
      ∀ a, c.contains a ↔ ∃ b ∈ c.hosts.toList, a = .v4 b) ∧
    (c.isV4 = false → c.hosts.toList = []) ∧
    ∃ words, c.hosts? = some words ∧ ∀ n,
      let (taken, left) := c.hosts.take n
      taken ++ left.toList = c.hosts.toList ∧ left.left = left.toList.length ∧ left.left ≤ 4294967296 ∧
      (left.next? = none ↔ left.toList = []) ∧
      ∃ rest, words.take? n = some (taken, rest) ∧ rest.left? = some (BitVec.ofNat 64 left.left) := by
  obtain ⟨hbelow, hstop⟩ := c.hosts_bounds
  obtain ⟨words, hwords, hsame⟩ := c.hosts?_eq
  refine ⟨fun a => ⟨c.contains?_eq a, contains_iff⟩, masked?_eq rfl, rfl, c.network_network, c.contains_network,
    fun h => ⟨Hosts.pairwise_toList hstop, ?_, fun a => contains_iff_mem_hosts h⟩, fun h => ?_, words, hwords,
    fun n => ⟨Hosts.take_append_toList _ n, (Hosts.length_toList _).symm, ?_, Hosts.next?_eq_none_iff, ?_⟩⟩
  · rw [Hosts.length_toList, left_hosts h]
    rfl
  · rw [hosts_v6 h]
    rfl
  · rw [Hosts.left_take, Hosts.left]
    omega
  · obtain ⟨rest, htake, hrest⟩ := words.take?_eq n
    rw [hsame] at htake hrest
    refine ⟨rest, htake, ?_⟩
    rw [HostWords.left?_eq, hrest]
    rw [hrest]
    exact Hosts.next_le_stop_take hbelow n

/-- The last two addresses, reached from the second one; no IPv6 address is among them. -/
theorem arithmetic_exact_last :
    let c : Cidr := ⟨.v4 (.ofOctets 255 255 255 255), 31, by decide⟩
    c.isV4 ∧ c.hosts.toList.length = 2 ∧ c.hosts.toList = [.ofOctets 255 255 255 254, .ofOctets 255 255 255 255] ∧
    c.contains? (.v6 (.ofNat 0)) = some false := by
  intro c
  obtain ⟨hcontains, -, -, -, -, hv4, -⟩ := arithmetic_exact c
  obtain ⟨-, hlength, -⟩ := hv4 rfl
  exact ⟨rfl, hlength, by decide, (hcontains _).1.trans (by decide)⟩

end Cidr

end RouteProgramming
