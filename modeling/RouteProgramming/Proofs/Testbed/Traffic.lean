import RouteProgramming.Proofs.Forwarding.Routing
import RouteProgramming.Proofs.Rib.Mirror
import RouteProgramming.Testbed

/-! Traffic through the testbed. A route carries a network if it is the longest
around every address of it and every next-hop of its group leads to the tester's
interface that the network lies behind. Then every frame to the network arrives,
whichever member its address is hashed to, and however many frames there are. On
a device whose hardware mirrors its tables it is enough that the installed
routes are so. -/

namespace RouteProgramming.Tester

variable {t : Tester} {d : Device} {source sink : TesterInterface} {network : TesterNetwork}

/-! ### The two ends of the way -/

/-- The device's interface at the other end of a source's link takes its frames. -/
structure Ingress (t : Tester) (d : Device) (source : TesterInterface) (i : InterfaceSettings) : Prop where
  linked : ∃ port name, t.links.get? source.port = some port ∧ Device.interfaceOf? port = some name ∧
    d.interfaces.get? name = some i
  enabled : i.isEnabled
  gateway : i.address = source.gateway

theorem Ingress.enters {i : InterfaceSettings} (h : t.Ingress d source i) : t.enters d source := by
  obtain ⟨port, name, hlink, hport, hname⟩ := h.linked
  simp [Tester.enters, hlink, hport, hname, h.enabled, h.gateway]

/-- The only interface on the only port that is linked to the port of a device's interface. -/
structure Opposite (t : Tester) (interface : String) (sink : TesterInterface) : Prop where
  linked : ∃ port, Device.portOf? interface = some port ∧ ∀ link, t.links.get? link = some port ↔ link = sink.port
  known : sink ∈ t.topology.interfaces.values
  only : ∀ other ∈ t.topology.interfaces.values, other.port = sink.port → other = sink

/-- Frames that leave by a port linked to just one port of the tester reach an interface there, if there is one. -/
theorem reached?_eq_onPort? {interface port link : String} (hport : Device.portOf? interface = some port)
    (linked : ∀ l, t.links.get? l = some port ↔ l = link) : t.reached? interface = t.topology.onPort? link := by
  have hrow := Table.get?_eq_some_iff.1 ((linked link).2 rfl)
  cases hfind : t.links.rows.find? (·.2 == port) with
  | none => exact absurd (List.find?_eq_none.1 hfind _ hrow) (by simp)
  | some r =>
    have hsame := List.find?_some hfind
    have hlink : r.1 = link := by
      rw [← linked, Table.get?_eq_some_iff, ← beq_iff_eq.1 hsame]
      exact List.mem_of_find?_eq_some hfind
    simp [Tester.reached?, hport, hfind, hlink]

theorem Opposite.reached? {interface : String} (h : t.Opposite interface sink) : t.reached? interface = some sink := by
  obtain ⟨port, hport, hlink⟩ := h.linked
  rw [reached?_eq_onPort? hport hlink, Topology.onPort?]
  cases hfind : t.topology.interfaces.values.find? (·.port == sink.port) with
  | none => exact absurd (List.find?_eq_none.1 hfind sink h.known) (by simp)
  | some other =>
    have hport := List.find?_some hfind
    rw [h.only other (List.mem_of_find?_eq_some hfind) (beq_iff_eq.1 hport)]

/-- A next-hop that leads to the interface that a network lies behind, and hands frames over to it. -/
def LeadsTo (t : Tester) (d : Device) (network : TesterNetwork) (e : NextHop) : Prop :=
  ∃ i sink, d.plane.Egress e i ∧ t.Opposite i.name sink ∧ network.interface = sink.name ∧
    ∀ a, e.address = some a → a = .v4 sink.address

/-! ### Routes that carry a network -/

/-- In a table of entries, a route is the longest around every address of a network, no connected subnet around
any of them is as long, and the next-hops of its group lead to the network. -/
structure Carries (t : Tester) (d : Device) (table : EntryKey → Option Entry) (network : TesterNetwork) (route : Cidr)
    (group : UInt64) : Prop where
  installed : table (.ipv4 route) = some (.ipv4 ⟨route, group⟩)
  covers : ∀ a : Ipv4, network.subnet.contains (.v4 a) → route.contains (.v4 a)
  longest : ∀ other id, table (.ipv4 other) = some (.ipv4 ⟨other, id⟩) → route.length < other.length →
    ∀ a : Ipv4, network.subnet.contains (.v4 a) → other.contains (.v4 a) = false
  unconnected : ∀ i ∈ d.plane.interfaces.values, i.enabled → route.length ≤ i.subnet.length →
    ∀ a : Ipv4, network.subnet.contains (.v4 a) → i.subnet.contains (.v4 a) = false
  members : ∀ g, table (.nextHopGroup group) = some (.nextHopGroup g) → ∀ index ∈ g.members.keys,
    ∀ e, table (.nextHop index) = some (.nextHop e) → t.LeadsTo d network e

/-- The entries that a route needs are in the table, and every route in the table is without host bits. -/
structure Complete (table : EntryKey → Option Entry) (group : UInt64) : Prop where
  masked : ∀ route id, table (.ipv4 route) = some (.ipv4 ⟨route, id⟩) → route = route.network
  group : ∃ g, table (.nextHopGroup group) = some (.nextHopGroup g) ∧ 0 < g.totalWeight ∧
    ∀ index ∈ g.members.keys, ∃ e, table (.nextHop index) = some (.nextHop e)

/-- What the hardware has under the keys of a network instance. -/
def hardware (d : Device) : EntryKey → Option Entry := (d.plane.fib d.networkInstance).get?

section Hardware

variable {f : Fib}

theorem get?_route {route : Cidr} {id : UInt64} :
    f.get? (.ipv4 route) = some (.ipv4 ⟨route, id⟩) ↔ f.routes.get? route = some id := by
  simp [Fib.get?]

theorem get?_group {id : UInt64} {g : NextHopGroup} :
    f.get? (.nextHopGroup id) = some (.nextHopGroup g) ↔ f.groups.get? id = some g := by
  simp [Fib.get?]

theorem get?_nextHop {index : UInt64} {e : NextHop} :
    f.get? (.nextHop index) = some (.nextHop e) ↔ f.nextHops.get? index = some e := by
  simp [Fib.get?]

end Hardware

variable {route : Cidr} {group : UInt64}

/-- A frame to the network leaves towards the interface that the network lies behind, whichever member it takes. -/
theorem Carries.lookup (hp : d.plane.Keyed) (h : t.Carries d (hardware d) network route group)
    (hc : Complete (hardware d) group) {dst : Ipv4} (hin : network.subnet.contains (.v4 dst)) :
    ∃ way sink, d.plane.lookup d.networkInstance dst = some way ∧ t.Opposite way.interface sink ∧
      network.interface = sink.name ∧ (way.nextHop = .v4 sink.address ∨ way.nextHop = .v4 dst) := by
  obtain ⟨g, hgroup, hweight, hmembers⟩ := hc.group
  obtain ⟨index, hindex, hpick⟩ := g.pick_mem hweight dst
  obtain ⟨e, he⟩ := hmembers index hindex
  obtain ⟨i, sink, hegress, hopposite, hbehind, haddress⟩ := h.members g hgroup index hindex e he
  have hhanded : e.address.getD (.v4 dst) = .v4 sink.address ∨ e.address.getD (.v4 dst) = .v4 dst := by
    cases ha : e.address with
    | none => exact .inr rfl
    | some a => exact .inl (haddress a ha)
  refine ⟨⟨i.name, e.address.getD (.v4 dst), route, true⟩, sink, ?_, hopposite, hbehind, hhanded⟩
  rw [ForwardingPlane.lookup_of_route (get?_route.1 h.installed) (h.covers dst hin)]
  · exact ForwardingPlane.follow_of_egress hp (get?_group.1 hgroup) hpick (get?_nextHop.1 he) hegress
  · intro other id hother haround hne
    refine Nat.lt_of_le_of_ne (Nat.le_of_not_lt fun hlong => ?_) fun hsame => hne ?_
    · have := h.longest other id (get?_route.2 hother) hlong dst hin
      rw [haround] at this
      contradiction
    · exact Cidr.eq_of_contains haround (h.covers dst hin) (hc.masked other id (get?_route.2 hother))
        (hc.masked route group h.installed) hsame
  · intro i hi henabled haround
    refine Nat.lt_of_not_le fun hlong => ?_
    have := h.unconnected i hi henabled hlong dst hin
    rw [haround] at this
    contradiction

/-- A frame that is handed over to the interface that the network lies behind has arrived. -/
theorem Carries.delivers (hp : d.plane.Keyed) (h : t.Carries d (hardware d) network route group)
    (hc : Complete (hardware d) group) (hnetwork : network ∈ t.topology.networks.values) {i : InterfaceSettings}
    (hi : t.Ingress d source i) {dst : Ipv4} (hin : network.subnet.contains (.v4 dst)) : t.delivers d source dst := by
  obtain ⟨way, sink, hlookup, hopposite, hbehind, hhanded⟩ := h.lookup hp hc hin
  have howns : t.topology.owns sink dst := by
    rw [Topology.owns, Bool.or_eq_true, List.any_eq_true]
    exact .inr ⟨network, hnetwork, by simp [hbehind, hin]⟩
  simp [Tester.delivers, hi.enters, hlookup, hopposite.reached?, howns, hhanded]

/-! ### Counting frames -/

theorem countFirst_of_all {arrives : Ipv4 → Bool} {hosts : Hosts} {n : Nat}
    (h : ∀ j < n, arrives (.ofNat (hosts.next + j))) : countFirst arrives hosts n = n := by
  rw [countFirst, List.countP_eq_length.2 fun j hj => h j (List.mem_range.1 hj), List.length_range]

/-- If every host gets its frames, all frames arrive. -/
theorem arrivals_of_all {arrives : Ipv4 → Bool} {hosts : Hosts} (hpos : 0 < hosts.left)
    (h : ∀ j < hosts.left, arrives (.ofNat (hosts.next + j))) (n : Nat) : arrivals arrives hosts n = n := by
  rw [arrivals]
  split
  case isTrue hlt => exact countFirst_of_all fun j hj => h j (Nat.lt_trans hj hlt)
  case isFalse =>
    rw [countFirst_of_all h, countFirst_of_all fun j hj => h j (Nat.lt_trans hj (Nat.mod_lt n hpos)), Nat.mul_comm,
      Nat.div_add_mod]

/-- All frames of a flow arrive if the hardware carries the network that it goes to. -/
theorem Carries.runFlow (hp : d.plane.Keyed) (h : t.Carries d (hardware d) network route group)
    (hc : Complete (hardware d) group) {flow : Flow} (hsource : t.topology.interfaces.get? flow.source = some source)
    (hnetwork : t.topology.networks.get? flow.destination = some network) (hv4 : network.subnet.isV4)
    {i : InterfaceSettings} (hi : t.Ingress d source i) (name : String) (n : Nat) :
    t.runFlow d name flow n = .ok ⟨name, n, n⟩ := by
  have hmem : network ∈ t.topology.networks.values := Table.mem_values_iff.2 ⟨_, hnetwork⟩
  have hall : ∀ j < network.subnet.hosts.left, t.delivers d source (.ofNat (network.subnet.hosts.next + j)) :=
    fun j hj => h.delivers hp hc hmem hi (Cidr.contains_host hv4 hj)
  rw [Tester.runFlow, hsource, hnetwork]
  simp only [arrivals_of_all (Cidr.hosts_left_pos hv4) hall n]

/-! ### Installed routes -/

/-- An installed route has all that it needs. -/
theorem complete_of_installed {r : Rib} {ni : String} (h : r.Coherent)
    (hroute : r.installed? ni (.ipv4 route) = some (.ipv4 ⟨route, group⟩)) : Complete (r.installed? ni) group := by
  constructor
  · intro other id hother
    obtain ⟨-, hcheck⟩ := h.valid hother
    rw [Entry.check, Ipv4Entry.check] at hcheck
    split at hcheck
    · contradiction
    · split at hcheck
      · contradiction
      · next hmasked => exact Decidable.of_not_not hmasked
  · obtain ⟨f, hf, hkey, hcheck⟩ := h.closed hroute (j := .nextHopGroup group) (List.mem_singleton.2 rfl)
    cases f with
    | nextHop | ipv4 => contradiction
    | nextHopGroup g =>
      refine ⟨g, hf, NextHopGroup.totalWeight_pos hcheck, fun index hindex => ?_⟩
      obtain ⟨f, hf, hkey, -⟩ := h.closed hf (j := .nextHop index) (List.mem_map.2 ⟨index, hindex, rfl⟩)
      cases f with
      | nextHop e => exact ⟨e, hf⟩
      | nextHopGroup | ipv4 => contradiction

/-- Where the hardware mirrors the tables, all frames of a flow arrive if the installed routes carry its network. -/
theorem runFlow_installed (h : d.responder.rib.Mirrored)
    (carries : t.Carries d (d.responder.rib.installed? d.networkInstance) network route group) {flow : Flow}
    (hsource : t.topology.interfaces.get? flow.source = some source)
    (hnetwork : t.topology.networks.get? flow.destination = some network) (hv4 : network.subnet.isV4)
    {i : InterfaceSettings} (hi : t.Ingress d source i) (name : String) (n : Nat) :
    t.runFlow d name flow n = .ok ⟨name, n, n⟩ := by
  have hsame : hardware d = d.responder.rib.installed? d.networkInstance := funext fun k => h.same _ k
  have hcomplete : Complete (hardware d) group := by
    rw [hsame]
    exact complete_of_installed h.coherent carries.installed
  rw [← hsame] at carries
  exact carries.runFlow h.keyed hcomplete hsource hnetwork hv4 hi name n

end RouteProgramming.Tester
