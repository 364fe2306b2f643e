import RouteProgramming.Proofs.Address.Text
import RouteProgramming.Proofs.Testbed.Traffic

/-! The fixed addressing of the testbed: a link on either port, and the network
203.0.113.0/24 behind the tester's second port. On a testbed that is wired so, a
route for that network carries it as soon as it is the only route and all
next-hops of its group leave by the second port. -/

namespace RouteProgramming

namespace Cidr

theorem contains_v4 {b a : Ipv4} {n : Nat} {hn : n ≤ 32} :
    (⟨.v4 b, n, hn⟩ : Cidr).contains (.v4 a) ↔ a.toNat / blockSize n = b.toNat / blockSize n := by
  rw [contains, Bool.and_eq_true, beq_iff_eq, beq_iff_eq, masked_eq_iff]
  exact and_iff_right rfl

end Cidr

namespace Testbed

/-! ### The wires -/

def sourceInterface : Interface :=
  ⟨"Ethernet0", .ofOctets 192 0 2 2, ⟨.v4 (.ofOctets 192 0 2 2), 30, by decide⟩, true⟩

def destinationInterface : Interface :=
  ⟨"Ethernet4", .ofOctets 192 0 2 5, ⟨.v4 (.ofOctets 192 0 2 5), 30, by decide⟩, true⟩

def wiring : Table String Interface :=
  .ofList [("Ethernet0", sourceInterface), ("Ethernet4", destinationInterface)]

def testerSource : TesterInterface := ⟨"ateSrc", "port1", .ofOctets 192 0 2 1, 30, .ofOctets 192 0 2 2⟩

def testerDestination : TesterInterface := ⟨"dst", "port2", .ofOctets 192 0 2 6, 30, .ofOctets 192 0 2 5⟩

def testerNetwork : TesterNetwork := ⟨"dstnet", "dst", destinationPrefix⟩

def fixedTopology : Topology where
  interfaces := .ofList [("ateSrc", testerSource), ("dst", testerDestination)]
  networks := .ofList [("dstnet", testerNetwork)]

theorem get?_links {link : String} : (Table.ofList links).get? link = some "port2" ↔ link = "port2" := by
  rw [Table.get?_eq_some_iff, show (Table.ofList links).rows = links from rfl]
  simp [links]

/-- A testbed with the fixed addressing, whatever is programmed and sent on it. -/
structure Wired (t : Testbed) : Prop where
  interfaces : t.device.plane.interfaces = wiring
  settings : ∃ i, t.device.interfaces.get? "Ethernet0" = some i ∧ i.isEnabled ∧ i.address = .ofOctets 192 0 2 2
  links : t.tester.links = .ofList links
  topology : t.tester.topology = fixedTopology

namespace Wired

variable {t : Testbed}

theorem ingress (h : t.Wired) : ∃ i, t.tester.Ingress t.device testerSource i := by
  obtain ⟨i, hi, henabled, haddress⟩ := h.settings
  refine ⟨i, ⟨"port1", "Ethernet0", ?_, rfl, hi⟩, henabled, haddress⟩
  rw [h.links]
  rfl

theorem values (h : t.Wired) : t.device.plane.interfaces.values = [sourceInterface, destinationInterface] := by
  rw [h.interfaces]
  rfl

theorem opposite (h : t.Wired) : t.tester.Opposite "Ethernet4" testerDestination := by
  have hvalues : t.tester.topology.interfaces.values = [testerSource, testerDestination] := by
    rw [h.topology]
    rfl
  refine ⟨⟨"port2", rfl, fun link => ?_⟩, ?_, fun other hother hport => ?_⟩
  · rw [h.links]
    exact get?_links
  · simp [hvalues]
  · rw [hvalues] at hother
    simp only [List.mem_cons, List.not_mem_nil, or_false] at hother
    rcases hother with rfl | rfl
    · exact absurd hport (by decide)
    · rfl

/-- The tester's address on the second link lies in the subnet of that link alone. -/
theorem nearest (h : t.Wired) : t.device.plane.Nearest (.v4 testerDestination.address) destinationInterface := by
  refine ⟨by simp [h.values], rfl, by decide, fun j hj _ haround => ?_⟩
  rw [h.values] at hj
  simp only [List.mem_cons, List.not_mem_nil, or_false] at hj
  rcases hj with rfl | rfl
  · exact absurd haround (by decide)
  · exact .inr ⟨rfl, by rw [Std.ReflOrd.compare_self]; rfl⟩

/-- A next-hop with the tester's address on the second link leads to the network behind it. -/
theorem leadsTo_address (h : t.Wired) {e : NextHop} (unnamed : e.interface = none)
    (address : e.address = some (.v4 testerDestination.address)) : t.tester.LeadsTo t.device testerNetwork e := by
  refine ⟨destinationInterface, testerDestination, .addressed unnamed address h.nearest, h.opposite, rfl, ?_⟩
  intro a ha
  exact Option.some.inj (ha.symm.trans address)

/-- A next-hop that names the interface of the second port needs no address. -/
theorem leadsTo_name (h : t.Wired) {e : NextHop} (names : e.interface = some "Ethernet4") (bare : e.address = none) :
    t.tester.LeadsTo t.device testerNetwork e := by
  have hget : t.device.plane.interfaces.get? "Ethernet4" = some destinationInterface := by
    rw [h.interfaces]
    rfl
  refine ⟨destinationInterface, testerDestination, .named names hget rfl, h.opposite, rfl, ?_⟩
  intro a ha
  rw [bare] at ha
  contradiction

/-- Neither link's subnet meets the network. -/
theorem unconnected (h : t.Wired) {i : Interface} (hi : i ∈ t.device.plane.interfaces.values) {a : Ipv4}
    (ha : destinationPrefix.contains (.v4 a)) : i.subnet.contains (.v4 a) = false := by
  have hnetwork : a.toNat / 256 = 0xcb007100 / 256 := Cidr.contains_v4.1 ha
  rw [h.values] at hi
  simp only [List.mem_cons, List.not_mem_nil, or_false] at hi
  rw [Bool.eq_false_iff]
  rcases hi with rfl | rfl
  · intro hlink
    have hlink : a.toNat / 4 = 0xc0000202 / 4 := Cidr.contains_v4.1 hlink
    omega
  · intro hlink
    have hlink : a.toNat / 4 = 0xc0000205 / 4 := Cidr.contains_v4.1 hlink
    omega

/-- The only route carries the network if the members of its group do. -/
theorem carries (h : t.Wired) {table : EntryKey → Option Entry} {group : UInt64}
    (only : ∀ route id, table (.ipv4 route) = some (.ipv4 ⟨route, id⟩) ↔ route = destinationPrefix ∧ id = group)
    (members : ∀ g, table (.nextHopGroup group) = some (.nextHopGroup g) → ∀ index ∈ g.members.keys,
      ∀ e, table (.nextHop index) = some (.nextHop e) → t.tester.LeadsTo t.device testerNetwork e) :
    t.tester.Carries t.device table testerNetwork destinationPrefix group where
  installed := (only ..).2 ⟨rfl, rfl⟩
  covers _ ha := ha
  longest other id hother hlong := by
    rw [((only other id).1 hother).1] at hlong
    exact absurd hlong (Nat.lt_irrefl _)
  unconnected _ hi _ _ _ ha := h.unconnected hi ha
  members := members

end Wired

end Testbed

end RouteProgramming
