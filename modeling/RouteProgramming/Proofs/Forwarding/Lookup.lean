import RouteProgramming.Proofs.Forwarding.Routing

/-! What a lookup decides, and when it decides nothing. A plane is what any
calls have made of an empty one, so that its tables may lack what a route needs
and its routes may carry host bits. The longest programmed route around a
destination wins if every enabled connected subnet around it is shorter, and is
then followed without a way back; otherwise the longest connected subnet wins. -/

namespace RouteProgramming

namespace ForwardingPlane

/-! ### Calls -/

inductive Call where
  | configure (name : String) (address : Ipv4) (length : Nat) (enabled : Bool)
  | removeInterface (name : String)
  | program (networkInstance : String) (entry : Entry)
  | remove (networkInstance : String) (key : EntryKey)
  | failNext (count : Nat)

/-- The plane after a call, whatever the call answers. -/
def call (p : ForwardingPlane) : Call → ForwardingPlane
  | .configure name address length enabled =>
    match p.configure name address length enabled with
    | .ok q => q
    | .error _ => p
  | .removeInterface name => (p.removeInterface name).2
  | .program networkInstance entry => (p.program networkInstance entry).2
  | .remove networkInstance key => (p.remove networkInstance key).2
  | .failNext count => p.failNext count

def callAll (p : ForwardingPlane) (calls : List Call) : ForwardingPlane := calls.foldl call p

variable {p : ForwardingPlane}

theorem interfaces_program (p : ForwardingPlane) (ni : String) (e : Entry) :
    (p.program ni e).2.interfaces = p.interfaces := by
  rw [program]
  split
  · rfl
  · split <;> rfl

theorem interfaces_remove (p : ForwardingPlane) (ni : String) (k : EntryKey) :
    (p.remove ni k).2.interfaces = p.interfaces := by
  rw [remove]
  split <;> rfl

theorem Keyed.call (h : p.Keyed) (c : Call) : (p.call c).Keyed := by
  cases c with
  | configure name address length enabled =>
    rw [ForwardingPlane.call]
    split
    case h_1 q hq => exact h.configure hq
    case h_2 => exact h
  | removeInterface name => exact h.removeInterface name
  | program ni e => exact h.of_interfaces (p.interfaces_program ni e)
  | remove ni k => exact h.of_interfaces (p.interfaces_remove ni k)
  | failNext count => exact h

theorem Keyed.callAll (h : p.Keyed) (calls : List Call) : (p.callAll calls).Keyed := by
  induction calls generalizing p with
  | nil => exact h
  | cons c calls ih => exact ih (h.call c)

theorem keyed_empty : Keyed {} := nofun

/-! ### The longest route -/

theorem lastLongest?_matching_eq_none {f : Fib} {a : Address} :
    lastLongest? (·.1.length) (f.matching a) = none ↔
      ∀ route id, f.routes.get? route = some id → route.contains a = false := by
  rw [lastLongest?_eq_none, Fib.matching, List.filter_eq_nil_iff]
  simp only [Prod.forall, ← Table.get?_eq_some_iff, Bool.not_eq_true]

/-! ### Ways -/

/-- Where a group leads a destination: the next-hop of the member that it picks, and the way out of that. -/
inductive Way (p : ForwardingPlane) (f : Fib) (group : UInt64) (dst : Ipv4) : NextHop → Interface → Prop
  | member {g : NextHopGroup} {index : UInt64} {e : NextHop} {i : Interface} (known : f.groups.get? group = some g)
    (picked : g.pick dst = some index) (target : f.nextHops.get? index = some e) (egress : p.Egress e i) :
    Way p f group dst e i

theorem egress_of_resolve (hp : p.Keyed) {e : NextHop} {a : Address} {way : String × Address}
    (h : p.resolve e a = some way) : ∃ i, p.Egress e i ∧ way = (i.name, e.address.getD a) := by
  rw [resolve] at h
  split at h
  case h_1 name names =>
    split at h
    case h_1 i known =>
      split at h
      case isTrue enabled =>
        cases h
        exact ⟨i, .named names known enabled, rfl⟩
      case isFalse => contradiction
    case h_2 => contradiction
  case h_2 address unnamed addresses =>
    obtain ⟨i, hi, rfl⟩ := Option.map_eq_some_iff.1 h
    exact ⟨i, .addressed unnamed addresses ((connected?_eq_some_iff hp).1 hi), by rw [addresses]; rfl⟩
  case h_3 => contradiction

theorem follow_eq_some_iff (hp : p.Keyed) {f : Fib} {route : Cidr} {group : UInt64} {dst : Ipv4} {d : Decision} :
    p.follow f route group dst = some d ↔
      ∃ e i, p.Way f group dst e i ∧ d = ⟨i.name, e.address.getD (.v4 dst), route, true⟩ := by
  constructor
  · intro h
    simp only [follow, bind, Option.bind_eq_some_iff, pure, Option.some.injEq] at h
    obtain ⟨g, known, index, picked, e, target, way, hway, rfl⟩ := h
    obtain ⟨i, egress, rfl⟩ := egress_of_resolve hp hway
    exact ⟨e, i, .member known picked target egress, rfl⟩
  · rintro ⟨e, i, ⟨known, picked, target, egress⟩, rfl⟩
    exact follow_of_egress hp known picked target egress

theorem follow_eq_none_iff (hp : p.Keyed) {f : Fib} {route : Cidr} {group : UInt64} {dst : Ipv4} :
    p.follow f route group dst = none ↔ ¬∃ e i, p.Way f group dst e i := by
  rw [Option.eq_none_iff_forall_ne_some]
  constructor
  · rintro h ⟨e, i, way⟩
    exact h _ ((follow_eq_some_iff hp).2 ⟨e, i, way, rfl⟩)
  · intro h d hd
    obtain ⟨e, i, way, -⟩ := (follow_eq_some_iff hp).1 hd
    exact h ⟨e, i, way⟩

/-! ### Decisions -/

variable {ni : String} {dst : Ipv4} {d : Decision}

/-- No programmed route and no enabled connected subnet contains the destination. -/
structure Uncovered (p : ForwardingPlane) (ni : String) (dst : Ipv4) : Prop where
  routes : ∀ route id, (p.fib ni).routes.get? route = some id → route.contains (.v4 dst) = false
  subnets : ∀ i ∈ p.interfaces.values, i.enabled → i.subnet.contains (.v4 dst) = false

inductive Decides (p : ForwardingPlane) (ni : String) (dst : Ipv4) : Decision → Prop
  | connected {i : Interface} (nearest : p.Nearest (.v4 dst) i)
    (first : ∀ route id, (p.fib ni).routes.get? route = some id → route.contains (.v4 dst) →
      route.length ≤ i.subnet.length) : Decides p ni dst ⟨i.name, .v4 dst, i.subnet.network, false⟩
  | programmed {route : Cidr} {group : UInt64} {e : NextHop} {i : Interface} (wins : p.Wins ni dst route group)
    (way : p.Way (p.fib ni) group dst e i) : Decides p ni dst ⟨i.name, e.address.getD (.v4 dst), route, true⟩

/-- The four outcomes of the two searches. -/
inductive Looked (p : ForwardingPlane) (ni : String) (dst : Ipv4) : Option Decision → Prop
  | uncovered (uncovered : p.Uncovered ni dst) : Looked p ni dst none
  | connected {i : Interface} (nearest : p.Nearest (.v4 dst) i)
    (first : ∀ route id, (p.fib ni).routes.get? route = some id → route.contains (.v4 dst) →
      route.length ≤ i.subnet.length) : Looked p ni dst (some ⟨i.name, .v4 dst, i.subnet.network, false⟩)
  | followed {route : Cidr} {group : UInt64} (wins : p.Wins ni dst route group) :
    Looked p ni dst (p.follow (p.fib ni) route group dst)

theorem Foremost.le {f : Fib} {a : Address} {route other : Cidr} {group id : UInt64} (h : Foremost f a route group)
    (hother : f.routes.get? other = some id) (hin : other.contains a) : other.length ≤ route.length := by
  rcases h.longest other id hother hin with hlt | ⟨heq, -⟩ <;> omega

theorem Nearest.le {a : Address} {i j : Interface} (h : p.Nearest a i) (hj : j ∈ p.interfaces.values)
    (enabled : j.enabled) (around : j.subnet.contains a) : j.subnet.length ≤ i.subnet.length := by
  rcases h.longest j hj enabled around with hlt | ⟨heq, -⟩ <;> omega

theorem looked (hp : p.Keyed) (ni : String) (dst : Ipv4) : Looked p ni dst (p.lookup ni dst) := by
  rw [lookup]
  split
  case h_1 hroutes hsubnets =>
    exact .uncovered ⟨lastLongest?_matching_eq_none.1 hroutes, connected?_eq_none.1 hsubnets⟩
  case h_2 i hroutes hsubnet =>
    refine .connected ((connected?_eq_some_iff hp).1 hsubnet) fun route id hroute hin => ?_
    rw [lastLongest?_matching_eq_none.1 hroutes route id hroute] at hin
    contradiction
  case h_3 route group hroute hsubnets =>
    refine .followed ⟨foremost_iff.1 hroute, fun i hi enabled around => ?_⟩
    rw [connected?_eq_none.1 hsubnets i hi enabled] at around
    contradiction
  case h_4 route group i hroute hsubnet =>
    have foremost := foremost_iff.1 hroute
    have nearest := (connected?_eq_some_iff hp).1 hsubnet
    split
    case isTrue hlonger =>
      refine .followed ⟨foremost, fun j hj enabled around => ?_⟩
      have := nearest.le hj enabled around
      omega
    case isFalse hlonger =>
      refine .connected nearest fun other id hother hin => ?_
      have := foremost.le hother hin
      omega

theorem lookup_of_nearest (hp : p.Keyed) {i : Interface} (nearest : p.Nearest (.v4 dst) i)
    (first : ∀ route id, (p.fib ni).routes.get? route = some id → route.contains (.v4 dst) →
      route.length ≤ i.subnet.length) : p.lookup ni dst = some ⟨i.name, .v4 dst, i.subnet.network, false⟩ := by
  rw [lookup, (connected?_eq_some_iff hp).2 nearest]
  cases hroute : lastLongest? (·.1.length) ((p.fib ni).matching (.v4 dst)) with
  | none => rfl
  | some found =>
    have foremost := foremost_iff.1 hroute
    have hle := first found.1 found.2 foremost.programmed foremost.around
    exact if_neg (Nat.not_lt.2 hle)

theorem lookup_eq_some_iff (hp : p.Keyed) : p.lookup ni dst = some d ↔ p.Decides ni dst d := by
  constructor
  · intro h
    have hlooked := looked hp ni dst
    generalize hout : p.lookup ni dst = out at h hlooked
    cases hlooked with
    | uncovered => contradiction
    | connected nearest first =>
      cases h
      exact .connected nearest first
    | followed wins =>
      obtain ⟨e, i, way, rfl⟩ := (follow_eq_some_iff hp).1 h
      exact .programmed wins way
  · intro h
    cases h with
    | connected nearest first => exact lookup_of_nearest hp nearest first
    | programmed wins way =>
      rw [wins.lookup]
      exact (follow_eq_some_iff hp).2 ⟨_, _, way, rfl⟩

theorem Uncovered.lookup (h : p.Uncovered ni dst) : p.lookup ni dst = none := by
  rw [ForwardingPlane.lookup, lastLongest?_matching_eq_none.2 h.routes, connected?_eq_none.2 h.subnets]

/-- Nothing contains the destination, or the route that wins leads nowhere. -/
theorem lookup_eq_none_iff (hp : p.Keyed) : p.lookup ni dst = none ↔
    p.Uncovered ni dst ∨ ∃ route group, p.Wins ni dst route group ∧ ¬∃ e i, p.Way (p.fib ni) group dst e i := by
  constructor
  · intro h
    have hlooked := looked hp ni dst
    generalize hout : p.lookup ni dst = out at h hlooked
    cases hlooked with
    | uncovered uncovered => exact .inl uncovered
    | connected => contradiction
    | followed wins => exact .inr ⟨_, _, wins, (follow_eq_none_iff hp).1 h⟩
  · rintro (uncovered | ⟨route, group, wins, lost⟩)
    · exact uncovered.lookup
    · rw [wins.lookup]
      exact (follow_eq_none_iff hp).2 lost

/-! ### What a decision promises -/

/-- The longest prefix around the destination, a way out that is open, and the right address to hand over to. -/
structure Apt (p : ForwardingPlane) (ni : String) (dst : Ipv4) (d : Decision) : Prop where
  around : d.route.contains (.v4 dst)
  routes : ∀ route id, (p.fib ni).routes.get? route = some id → route.contains (.v4 dst) →
    route.length ≤ d.route.length
  subnets : ∀ i ∈ p.interfaces.values, i.enabled → i.subnet.contains (.v4 dst) → i.subnet.length ≤ d.route.length
  /-- Of a route and a subnet of one length the subnet wins. -/
  subnetsFirst : d.programmed → ∀ i ∈ p.interfaces.values, i.enabled → i.subnet.contains (.v4 dst) →
    i.subnet.length ≠ d.route.length
  egress : ∃ i, p.interfaces.get? d.interface = some i ∧ i.enabled
  member : d.programmed → ∃ group g index e, (p.fib ni).routes.get? d.route = some group ∧
    (p.fib ni).groups.get? group = some g ∧ index ∈ g.members.keys ∧ (p.fib ni).nextHops.get? index = some e ∧
    (e.address = some d.nextHop ∨ e.address = none ∧ e.interface = some d.interface ∧ d.nextHop = .v4 dst)
  direct : d.programmed = false → d.nextHop = .v4 dst

theorem Nearest.get? (hp : p.Keyed) {a : Address} {i : Interface} (h : p.Nearest a i) :
    p.interfaces.get? i.name = some i := by
  obtain ⟨name, hname⟩ := Table.mem_values_iff.1 h.known
  rw [hp name i hname]
  exact hname

/-- The way out of a next-hop is an enabled interface; a next-hop without an address names it. -/
theorem Egress.open (hp : p.Keyed) {e : NextHop} {i : Interface} (h : p.Egress e i) :
    p.interfaces.get? i.name = some i ∧ i.enabled ∧ (e.address = none → e.interface = some i.name) := by
  cases h with
  | @named name _ names known enabled =>
    have hname := hp name i known
    refine ⟨by rw [hname]; exact known, enabled, fun _ => by rw [hname]; exact names⟩
  | addressed unnamed address nearest =>
    refine ⟨nearest.get? hp, nearest.enabled, fun hnone => ?_⟩
    rw [address] at hnone
    contradiction

theorem Decides.apt (hp : p.Keyed) (h : p.Decides ni dst d) : p.Apt ni dst d := by
  cases h with
  | @connected i nearest first =>
    constructor
    case around => exact (Cidr.contains_network i.subnet _).trans nearest.around
    case routes => exact first
    case subnets => exact fun j hj enabled around => nearest.le hj enabled around
    case subnetsFirst => nofun
    case egress => exact ⟨i, nearest.get? hp, nearest.enabled⟩
    case member => nofun
    case direct => exact fun _ => rfl
  | @programmed route group e i wins way =>
    obtain ⟨known, picked, target, egress⟩ := way
    obtain ⟨hget, henabled, hnames⟩ := egress.open hp
    constructor
    case around => exact wins.foremost.around
    case routes => exact fun other id hother hin => wins.foremost.le hother hin
    case subnets => exact fun j hj enabled around => Nat.le_of_lt (wins.longer j hj enabled around)
    case subnetsFirst => exact fun _ j hj enabled around => Nat.ne_of_lt (wins.longer j hj enabled around)
    case egress => exact ⟨i, hget, henabled⟩
    case member =>
      refine fun _ => ⟨group, _, _, e, wins.foremost.programmed, known, NextHopGroup.mem_keys_of_pick picked,
        target, ?_⟩
      cases haddress : e.address with
      | some a => exact .inl rfl
      | none => exact .inr ⟨rfl, hnames haddress, rfl⟩
    case direct => nofun

/-- Whatever the calls have made of a plane: a lookup decides by the longest prefix, and it decides nothing exactly
if nothing contains the destination or the programmed route that wins leads nowhere. -/
theorem lookup_longest (calls : List Call) (ni : String) (dst : Ipv4) :
    (∀ d, (callAll {} calls).lookup ni dst = some d → (callAll {} calls).Apt ni dst d) ∧
    (∀ d, (callAll {} calls).lookup ni dst = some d ↔ (callAll {} calls).Decides ni dst d) ∧
    ((callAll {} calls).lookup ni dst = none ↔ (callAll {} calls).Uncovered ni dst ∨
      ∃ route group, (callAll {} calls).Wins ni dst route group ∧
        ¬∃ e i, (callAll {} calls).Way ((callAll {} calls).fib ni) group dst e i) := by
  have keyed := keyed_empty.callAll calls
  refine ⟨fun d hd => ?_, fun d => lookup_eq_some_iff keyed, lookup_eq_none_iff keyed⟩
  exact ((lookup_eq_some_iff keyed).1 hd).apt keyed

/-- Three links, the last switched off, and routes over the second: a default, one with host bits, one as long as the
subnet of the first link, and one whose group is taken out under it. -/
def crowded : List Call :=
  [.configure "Ethernet0" (.ofOctets 192 0 2 2) 30 true, .configure "Ethernet4" (.ofOctets 192 0 2 5) 30 true,
    .configure "Ethernet8" (.ofOctets 203 0 113 1) 25 false,
    .program "DEFAULT" (.nextHop { index := 42, address := some (.v4 (.ofOctets 192 0 2 6)) }),
    .program "DEFAULT" (.nextHopGroup { id := 10, members := Table.ofList [(42, 1)] }),
    .program "DEFAULT" (.nextHopGroup { id := 20, members := Table.ofList [(42, 1)] }),
    .program "DEFAULT" (.ipv4 ⟨⟨.v4 (.ofOctets 0 0 0 0), 0, by decide⟩, 10⟩),
    .program "DEFAULT" (.ipv4 ⟨⟨.v4 (.ofOctets 203 0 113 7), 24, by decide⟩, 10⟩),
    .program "DEFAULT" (.ipv4 ⟨⟨.v4 (.ofOctets 192 0 2 0), 30, by decide⟩, 10⟩),
    .program "DEFAULT" (.ipv4 ⟨⟨.v4 (.ofOctets 198 51 100 0), 24, by decide⟩, 20⟩),
    .remove "DEFAULT" (.nextHopGroup 20)]

theorem lookup_longest_crowded :
    (callAll {} crowded).Apt "DEFAULT" (.ofOctets 203 0 113 9)
      ⟨"Ethernet4", .v4 (.ofOctets 192 0 2 6), ⟨.v4 (.ofOctets 203 0 113 7), 24, by decide⟩, true⟩ ∧
    (callAll {} crowded).Decides "DEFAULT" (.ofOctets 192 0 2 1)
      ⟨"Ethernet0", .v4 (.ofOctets 192 0 2 1), ⟨.v4 (.ofOctets 192 0 2 0), 30, by decide⟩, false⟩ ∧
    ((callAll {} crowded).Uncovered "DEFAULT" (.ofOctets 198 51 100 1) ∨
      ∃ route group, (callAll {} crowded).Wins "DEFAULT" (.ofOctets 198 51 100 1) route group ∧
        ¬∃ e i, (callAll {} crowded).Way ((callAll {} crowded).fib "DEFAULT") group (.ofOctets 198 51 100 1) e i) :=
  ⟨(lookup_longest crowded "DEFAULT" (.ofOctets 203 0 113 9)).1 _ (by decide +kernel),
    ((lookup_longest crowded "DEFAULT" (.ofOctets 192 0 2 1)).2.1 _).1 (by decide +kernel),
    (lookup_longest crowded "DEFAULT" (.ofOctets 198 51 100 1)).2.2.1 (by decide +kernel)⟩

end ForwardingPlane

end RouteProgramming
