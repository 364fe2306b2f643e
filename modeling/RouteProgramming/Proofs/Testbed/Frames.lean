import Mathlib.Algebra.BigOperators.Group.Finset.Basic
import RouteProgramming.Proofs.Address.Hosts
import RouteProgramming.Proofs.Testbed.Journal

/-! How many frames of a flow arrive. The frames go to the hosts of the network in
turn, and to the first one again after the last. Frame `i` of them therefore goes
to host `i` modulo the number of hosts, so that each host gets as many frames as
there are whole rounds, and one more if the last round comes as far as it. What
arrives is the sum over the hosts whose frames are delivered. -/

namespace RouteProgramming

/-! ### Hosts in turn -/

namespace Hosts

/-- The next host, or the first one of all if there is none left. -/
def following? (all h : Hosts) : Option (Ipv4 × Hosts) :=
  match h.next? with
  | some next => some next
  | none => all.next?

/-- Where the next `n` frames go if `h` are the hosts left in this round. -/
def inTurn (all : Hosts) : Nat → (h : Hosts) → List Ipv4
  | 0, _ => []
  | n + 1, h =>
    match all.following? h with
    | none => []
    | some (a, h) => a :: all.inTurn n h

variable {all : Hosts}

/-- After `k` hosts of a round the next one is host `k`, or host 0 if the round is over. -/
theorem following?_eq (hpos : 0 < all.left) {k : Nat} (hk : k ≤ all.left) :
    all.following? ⟨all.next + k, all.stop⟩ =
      some (Ipv4.ofNat (all.next + k % all.left), ⟨all.next + (k % all.left + 1), all.stop⟩) := by
  have hleft : all.left = all.stop - all.next := rfl
  rcases Nat.lt_or_eq_of_le hk with hlt | rfl
  · have hmore : all.next + k < all.stop := by omega
    rw [following?, next?_of_lt hmore, Nat.mod_eq_of_lt hlt, rest, Nat.add_assoc]
  · have hover : ¬ all.next + all.left < all.stop := by omega
    have hfirst : all.next < all.stop := by omega
    rw [following?, next?_of_not_lt hover, Nat.mod_self]
    exact next?_of_lt hfirst

/-- After `k` hosts of a round, frame `i` goes to host `k + i` modulo the number of hosts. -/
theorem inTurn_eq (hpos : 0 < all.left) (n : Nat) {k : Nat} (hk : k ≤ all.left) :
    all.inTurn n ⟨all.next + k, all.stop⟩ =
      (List.range n).map (fun i => Ipv4.ofNat (all.next + (k + i) % all.left)) := by
  induction n generalizing k with
  | zero => rfl
  | succ n ih =>
    have hround : k % all.left + 1 ≤ all.left := Nat.mod_lt k hpos
    have hshift (i : Nat) : (k % all.left + 1 + i) % all.left = (k + (i + 1)) % all.left := by
      rw [Nat.add_assoc, Nat.mod_add_mod, Nat.add_comm 1 i]
    rw [List.range_succ_eq_map, List.map_cons, List.map_map, inTurn, following?_eq hpos hk]
    dsimp only
    rw [ih hround]
    simp only [hshift, Function.comp_def, Nat.succ_eq_add_one, Nat.add_zero]

theorem inTurn_all (hpos : 0 < all.left) (n : Nat) :
    all.inTurn n all = (List.range n).map (fun i => Ipv4.ofNat (all.next + i % all.left)) := by
  have hturn := inTurn_eq hpos n (Nat.zero_le _)
  simpa only [Nat.add_zero, Nat.zero_add] using hturn

theorem length_inTurn (hpos : 0 < all.left) (n : Nat) : (all.inTurn n all).length = n := by
  rw [inTurn_all hpos, List.length_map, List.length_range]

end Hosts

namespace Cidr

variable {c : Cidr}

/-- The host at a place, counted from the lowest. -/
def host (c : Cidr) (j : Nat) : Ipv4 := .ofNat (c.hosts.next + j)

theorem toNat_host (h : c.isV4) {j : Nat} (hj : j < blockSize c.length) : (c.host j).toNat = c.hosts.next + j := by
  have hstop := c.hosts_bounds.2
  rw [← left_hosts h, Hosts.left] at hj
  exact Ipv4.toNat_ofNat (by omega)

theorem contains_iff_host (h : c.isV4) {a : Ipv4} : c.contains (.v4 a) ↔ ∃ j < blockSize c.length, c.host j = a := by
  rw [← mem_hosts_iff h, Hosts.toList_eq, List.mem_map, left_hosts h]
  simp only [List.mem_range, host]

end Cidr

namespace Tester

/-! ### Rounds -/

/-- In `q` whole rounds and `r` steps of another, a place is passed once a round. -/
theorem countP_rounds (p : Nat → Bool) (s q : Nat) {r : Nat} (hr : r ≤ s) :
    (List.range (s * q + r)).countP (fun i => p (i % s)) = q * (List.range s).countP p + (List.range r).countP p := by
  have hfirst {m : Nat} (hm : m ≤ s) : (List.range m).countP (fun i => p (i % s)) = (List.range m).countP p := by
    apply List.countP_congr
    intro i hi
    rw [Nat.mod_eq_of_lt (Nat.lt_of_lt_of_le (List.mem_range.1 hi) hm)]
  induction q with
  | zero => rw [Nat.mul_zero, Nat.zero_add, hfirst hr, Nat.zero_mul, Nat.zero_add]
  | succ q ih =>
    have hsplit : s * (q + 1) + r = s + (s * q + r) := by rw [Nat.mul_succ]; omega
    have hagain : (fun i => p (i % s)) ∘ (s + ·) = fun i => p (i % s) := by
      funext i
      simp only [Function.comp_apply, Nat.add_mod_left]
    rw [hsplit, List.range_add, List.countP_append, List.countP_map, hagain, hfirst (Nat.le_refl s), ih, Nat.succ_mul]
    omega

variable {arrives : Ipv4 → Bool} {hosts : Hosts}

theorem arrivals_eq_rounds (arrives : Ipv4 → Bool) (hosts : Hosts) (n : Nat) : arrivals arrives hosts n =
    n / hosts.left * countFirst arrives hosts hosts.left + countFirst arrives hosts (n % hosts.left) := by
  rw [arrivals]
  split
  case isTrue hfew => rw [Nat.div_eq_of_lt hfew, Nat.mod_eq_of_lt hfew, Nat.zero_mul, Nat.zero_add]
  case isFalse => rfl

/-- Counting by rounds counts the frames one by one. -/
theorem arrivals_eq_countP (hpos : 0 < hosts.left) (n : Nat) :
    arrivals arrives hosts n = (hosts.inTurn n hosts).countP arrives := by
  have hrounds := countP_rounds (fun j => arrives (.ofNat (hosts.next + j))) hosts.left (n / hosts.left)
    (Nat.le_of_lt (Nat.mod_lt n hpos))
  rw [Nat.div_add_mod] at hrounds
  rw [arrivals_eq_rounds, Hosts.inTurn_all hpos, List.countP_map]
  exact hrounds.symm

/-- A place gets a frame in every whole round, and one more if it is among the first `r`. -/
theorem sum_shares (p : Nat → Bool) (q r s : Nat) :
    ∑ j ∈ Finset.range s, (if p j then q + (if j < r then 1 else 0) else 0) =
      q * (List.range s).countP p + (List.range (min r s)).countP p := by
  induction s with
  | zero => simp
  | succ s ih =>
    have hround : (List.range (s + 1)).countP p = (List.range s).countP p + if p s then 1 else 0 := by
      rw [List.range_succ, List.countP_append, List.countP_singleton]
    rw [Finset.sum_range_succ, ih, hround, Nat.mul_add]
    by_cases hlt : s < r
    · rw [Nat.min_eq_right hlt, Nat.min_eq_right (Nat.le_of_lt hlt), hround]
      split_ifs <;> omega
    · rw [Nat.min_eq_left (by omega), Nat.min_eq_left (by omega)]
      split_ifs <;> omega

theorem arrivals_eq_sum (hpos : 0 < hosts.left) (n : Nat) :
    arrivals arrives hosts n = ∑ j ∈ Finset.range hosts.left,
      (if arrives (.ofNat (hosts.next + j)) then n / hosts.left + (if j < n % hosts.left then 1 else 0) else 0) := by
  rw [sum_shares (fun j => arrives (.ofNat (hosts.next + j))), Nat.min_eq_left (Nat.le_of_lt (Nat.mod_lt n hpos)),
    arrivals_eq_rounds]
  rfl

theorem arrivals_le (hpos : 0 < hosts.left) (n : Nat) : arrivals arrives hosts n ≤ n := by
  rw [arrivals_eq_countP hpos]
  exact Nat.le_trans List.countP_le_length (Nat.le_of_eq (Hosts.length_inTurn hpos n))

/-- All frames arrive if those to the hosts that are reached at all do. -/
theorem arrivals_eq_iff (hpos : 0 < hosts.left) (n : Nat) :
    arrivals arrives hosts n = n ↔ ∀ j < min n hosts.left, arrives (.ofNat (hosts.next + j)) := by
  have hall : (hosts.inTurn n hosts).countP arrives = n ↔ ∀ a ∈ hosts.inTurn n hosts, arrives a := by
    rw [← List.countP_eq_length, Hosts.length_inTurn hpos]
  rw [arrivals_eq_countP hpos, hall, Hosts.inTurn_all hpos]
  constructor
  · intro h j hj
    obtain ⟨hframe, hhost⟩ := Nat.lt_min.1 hj
    have harrives := h _ (List.mem_map.2 ⟨j, List.mem_range.2 hframe, rfl⟩)
    rwa [Nat.mod_eq_of_lt hhost] at harrives
  · intro h a ha
    obtain ⟨i, hi, rfl⟩ := List.mem_map.1 ha
    have hframe := List.mem_range.1 hi
    apply h
    exact Nat.lt_min.2 ⟨Nat.lt_of_le_of_lt (Nat.mod_le ..) hframe, Nat.mod_lt i hpos⟩

/-! ### Flows -/

/-- The hosts of a flow's network are the addresses in it, from the lowest to the highest. Of `n` frames sent to them
in turn those arrive that are delivered: of each host that has its frames delivered, one for every whole round, and
one more if the last round comes as far. They are all of the frames exactly if they are delivered to every host that
the first round reaches. -/
theorem frames_counted {parts : List Topology.Part} {t : Tester} (built : Topology.build parts {} = .ok t.topology)
    {flow : Flow} {source : TesterInterface} {network : TesterNetwork}
    (origin : t.topology.interfaces.get? flow.source = some source)
    (target : t.topology.networks.get? flow.destination = some network) (d : Device) (name : String) (n : Nat) :
    let size := Nat.pow 2 (32 - network.subnet.length)
    let host := network.subnet.host
    (∀ i j, i < j → j < size → (host i).toNat < (host j).toNat) ∧
    (∀ a, network.subnet.contains (.v4 a) ↔ ∃ j < size, host j = a) ∧
    ∃ received, t.runFlow d name flow n = .ok ⟨name, n, received⟩ ∧
      received = (network.subnet.hosts.inTurn n network.subnet.hosts).countP (t.delivers d source) ∧
      received = ∑ j ∈ Finset.range size,
        (if t.delivers d source (host j) then n / size + (if j < n % size then 1 else 0) else 0) ∧
      received ≤ n ∧ (received = n ↔ ∀ j < min n size, t.delivers d source (host j)) := by
  intro size host
  have hv4 : network.subnet.isV4 := Topology.plain_empty.build built _ network target
  have hpos := Cidr.hosts_left_pos hv4
  have hsize : size = network.subnet.hosts.left := (Cidr.left_hosts hv4).symm
  refine ⟨fun i j hij hj => ?_, fun a => Cidr.contains_iff_host hv4,
    arrivals (t.delivers d source) network.subnet.hosts n, ?_, arrivals_eq_countP hpos n, ?_, arrivals_le hpos n, ?_⟩
  · rw [Cidr.toNat_host hv4 (Nat.lt_trans hij hj), Cidr.toNat_host hv4 hj]
    exact Nat.add_lt_add_left hij _
  · rw [runFlow, origin, target]
  · rw [hsize]
    exact arrivals_eq_sum hpos n
  · rw [hsize]
    exact arrivals_eq_iff hpos n

/-- The two links, and behind the second one a network that takes in both of them. -/
def astride : List Topology.Part :=
  [.interface Testbed.sourceEnd "port1" Testbed.deviceSourceEnd,
    .interface Testbed.destinationEnd "port2" Testbed.deviceDestinationEnd, .network "dst" "dstnet" "192.0.2.0/29"]

/-- Frames to the first link are lost unless they are for the tester's own address there. In a round and three frames
more, one host of the first link gets two. -/
theorem frames_counted_astride :
    let t := (Journal.onePush astride).testbed
    let flow : Flow := ⟨"ateSrc", "dstnet"⟩
    ∃ source network, Topology.build astride {} = .ok t.tester.topology ∧
      t.tester.topology.interfaces.get? flow.source = some source ∧
      t.tester.topology.networks.get? flow.destination = some network ∧
      t.tester.runFlow t.device "Flow" flow 11 = .ok ⟨"Flow", 11, 6⟩ ∧
      6 = ∑ j ∈ Finset.range 8, (if t.tester.delivers t.device source (network.subnet.host j) then
        11 / 8 + (if j < 11 % 8 then 1 else 0) else 0) ∧
      ¬∀ j < 8, t.tester.delivers t.device source (network.subnet.host j) := by
  intro t flow
  have hbuilt : Topology.build astride {} = .ok t.tester.topology := by decide +kernel
  have horigin : t.tester.topology.interfaces.get? flow.source = some Testbed.testerSource := by
    decide +kernel
  have htarget : t.tester.topology.networks.get? flow.destination =
      some ⟨"dstnet", "dst", ⟨.v4 (.ofOctets 192 0 2 0), 29, by decide⟩⟩ := by decide +kernel
  have hsix : t.tester.runFlow t.device "Flow" flow 11 = .ok ⟨"Flow", 11, 6⟩ := by decide +kernel
  obtain ⟨-, -, received, hrun, -, hsum, -, hall⟩ := frames_counted hbuilt horigin htarget t.device "Flow" 11
  have hreceived : 6 = received := by
    rw [hsix] at hrun
    cases hrun
    rfl
  subst hreceived
  exact ⟨_, _, hbuilt, horigin, htarget, hsix, hsum, fun h => absurd (hall.2 h) (by decide)⟩

end Tester

end RouteProgramming
