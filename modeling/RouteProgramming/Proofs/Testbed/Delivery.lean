import RouteProgramming.Proofs.Testbed.Journal

/-! Which interface of the tester gets a frame. Several interfaces may be on the
port that the device sends a frame to, and only the first of them by name is
asked: the frame arrives if that one owns its destination and is handed the
frame, and is lost if it does not, even where another one on the port would take
it. An interface that is added to a topology therefore loses a frame exactly if
it comes before all others on the port and does not take the frame itself. -/

namespace RouteProgramming

namespace Topology

variable {t u : Topology} {f i j : TesterInterface} {port : String} {nextHop : Address} {destination : Ipv4}

/-! ### The first interface on a port -/

/-- Of the interfaces on a port the first by name. -/
structure FirstOn (t : Topology) (port : String) (i : TesterInterface) : Prop where
  known : i ∈ t.interfaces.values
  on : i.port = port
  first : ∀ j ∈ t.interfaces.values, j.port = port → (compare i.name j.name).isLE

theorem Filed.get?_name (h : t.Filed) (hi : i ∈ t.interfaces.values) : t.interfaces.get? i.name = some i := by
  obtain ⟨name, hname⟩ := Table.mem_values_iff.1 hi
  rwa [h name i hname]

theorem Filed.eq_of_name (h : t.Filed) (hi : i ∈ t.interfaces.values) (hj : j ∈ t.interfaces.values)
    (same : i.name = j.name) : i = j := by
  have hget := h.get?_name hi
  rw [same, h.get?_name hj] at hget
  exact (Option.some.inj hget).symm

theorem Filed.values_increasing (h : t.Filed) :
    t.interfaces.values.Pairwise (fun i j => compare i.name j.name = .lt) := by
  refine List.pairwise_map.2 (t.interfaces.increasing.imp_of_mem fun {r s} hr hs hlt => ?_)
  rwa [h r.1 r.2 (Table.get?_eq_some_iff.2 hr), h s.1 s.2 (Table.get?_eq_some_iff.2 hs)]

theorem FirstOn.unique (filed : t.Filed) (hi : t.FirstOn port i) (hj : t.FirstOn port j) : i = j := by
  apply filed.eq_of_name hi.known hj.known
  have hle := hi.first j hj.known hj.on
  have hge := hj.first i hi.known hi.on
  exact Std.LawfulEqOrd.eq_of_compare (Std.OrientedCmp.isLE_antisymm hle hge)

theorem firstOn_of_onPort? (filed : t.Filed) (h : t.onPort? port = some i) : t.FirstOn port i := by
  obtain ⟨hon, before, after, hvalues, hothers⟩ := List.find?_eq_some_iff_append.1 h
  have hincreasing := filed.values_increasing
  rw [hvalues, List.pairwise_append, List.pairwise_cons] at hincreasing
  obtain ⟨-, ⟨hafter, -⟩, -⟩ := hincreasing
  refine ⟨by simp [hvalues], by simpa using hon, fun j hj hport => ?_⟩
  rw [hvalues, List.mem_append, List.mem_cons] at hj
  rcases hj with hbefore | rfl | hbehind
  · have hother := hothers j hbefore
    simp [hport] at hother
  · exact Std.ReflCmp.isLE_rfl
  · rw [hafter j hbehind]
    rfl

theorem exists_firstOn (filed : t.Filed) (hi : i ∈ t.interfaces.values) (hon : i.port = port) :
    ∃ f, t.onPort? port = some f ∧ t.FirstOn port f := by
  cases hfind : t.onPort? port with
  | none => exact absurd (List.find?_eq_none.1 hfind i hi) (by simp [hon])
  | some f => exact ⟨f, rfl, firstOn_of_onPort? filed hfind⟩

theorem onPort?_eq_some_iff (filed : t.Filed) : t.onPort? port = some i ↔ t.FirstOn port i := by
  constructor
  · exact firstOn_of_onPort? filed
  · intro h
    obtain ⟨f, hfind, hfirst⟩ := exists_firstOn filed h.known h.on
    rw [hfind, hfirst.unique filed h]

/-- The interface owns the destination of a frame that is handed over to it, or to the destination itself. -/
def Takes (t : Topology) (i : TesterInterface) (nextHop : Address) (destination : Ipv4) : Prop :=
  t.owns i destination ∧ (nextHop = .v4 i.address ∨ nextHop = .v4 destination)

/-! ### One interface more -/

/-- A topology with an interface under a new name. -/
structure Extends (t u : Topology) (f : TesterInterface) : Prop where
  fresh : t.interfaces.get? f.name = none
  interfaces : u.interfaces = t.interfaces.insert f.name f
  networks : u.networks = t.networks

/-- All interfaces on the port come after the name. -/
def Precedes (t : Topology) (name port : String) : Prop :=
  ∀ i ∈ t.interfaces.values, i.port = port → compare name i.name = .lt

theorem extends_of_addInterface {linkEnd gateway : LinkEnd} (h : t.addInterface linkEnd port gateway = .ok u)
    (fresh : t.interfaces.get? linkEnd.name = none) :
    ∃ f, t.Extends u f ∧ f.name = linkEnd.name ∧ f.port = port ∧ linkEnd.address = .ok f.address := by
  have hadd : t.add (.interface linkEnd port gateway) = .ok u := h
  cases added_of_add hadd with
  | @interface _ _ _ address gatewayAddress ends hands =>
    exact ⟨⟨linkEnd.name, port, address, linkEnd.length, gatewayAddress⟩, ⟨fresh, rfl, rfl⟩, rfl, rfl, ends⟩

namespace Extends

theorem mem_values_iff (h : t.Extends u f) : i ∈ u.interfaces.values ↔ i = f ∨ i ∈ t.interfaces.values := by
  rw [h.interfaces, Table.mem_values_insert h.fresh]

/-- It is the first on its port if all that were there come after it. -/
theorem firstOn_self (h : t.Extends u f) (ahead : t.Precedes f.name f.port) : u.FirstOn f.port f := by
  refine ⟨h.mem_values_iff.2 (.inl rfl), rfl, fun j hj hport => ?_⟩
  rcases h.mem_values_iff.1 hj with rfl | hold
  · exact Std.ReflCmp.isLE_rfl
  · rw [ahead j hold hport]
    rfl

/-- Otherwise the first on each port is the same as before. -/
theorem firstOn_old (h : t.Extends u f) (hi : t.FirstOn port i) (behind : ¬(f.port = port ∧ t.Precedes f.name port)) :
    u.FirstOn port i := by
  refine ⟨h.mem_values_iff.2 (.inr hi.known), hi.on, fun j hj hport => ?_⟩
  rcases h.mem_values_iff.1 hj with rfl | hold
  · rw [Ordering.isLE_iff_ne_gt]
    intro hgt
    refine behind ⟨hport, fun k hk hon => ?_⟩
    exact Std.TransCmp.lt_of_lt_of_isLE (Std.OrientedCmp.lt_of_gt hgt) (hi.first k hk hon)
  · exact hi.first j hold hport

theorem takes_iff (h : t.Extends u f) : u.Takes i nextHop destination ↔ t.Takes i nextHop destination := by
  rw [Takes, Takes, owns, owns, h.networks]

/-- There is no network behind a new interface, so that it takes just the frames to its own address. -/
theorem takes_self_iff (h : t.Extends u f) (grounded : t.Grounded) :
    u.Takes f nextHop destination ↔ f.address = destination ∧ nextHop = .v4 destination := by
  have hbare : u.owns f destination ↔ destination = f.address := by
    rw [owns, Bool.or_eq_true, beq_iff_eq, or_iff_left]
    rw [List.any_eq_true]
    rintro ⟨n, hn, hbehind⟩
    rw [h.networks, Table.mem_values_iff] at hn
    obtain ⟨name, hname⟩ := hn
    have hthere := grounded name n hname
    rw [Bool.and_eq_true, beq_iff_eq] at hbehind
    rw [hbehind.1, Table.contains, h.fresh] at hthere
    contradiction
  rw [Takes, hbare]
  constructor
  · rintro ⟨rfl, hhanded | hhanded⟩ <;> exact ⟨rfl, hhanded⟩
  · rintro ⟨rfl, hhanded⟩
    exact ⟨rfl, .inr hhanded⟩

theorem filed (h : t.Extends u f) (filed : t.Filed) : u.Filed := filed.of_insert f h.interfaces

end Extends

end Topology

namespace Tester

variable {t : Tester} {d : Device} {source : TesterInterface} {destination : Ipv4} {way : Decision} {link : String}

/-! ### Frames on their way -/

/-- The device takes the frames of a source, and sends those for a destination to one port of the tester. -/
structure Passes (t : Tester) (d : Device) (source : TesterInterface) (destination : Ipv4) (way : Decision)
    (link : String) : Prop where
  enters : t.enters d source
  leaves : d.plane.lookup d.networkInstance destination = some way
  linked : ∃ port, Device.portOf? way.interface = some port ∧ ∀ l, t.links.get? l = some port ↔ l = link

/-- A frame arrives if the first interface on the port takes it. -/
theorem Passes.delivers_iff (h : t.Passes d source destination way link) (filed : t.topology.Filed) :
    t.delivers d source destination ↔
      ∃ i, t.topology.FirstOn link i ∧ t.topology.Takes i way.nextHop destination := by
  obtain ⟨port, hport, hlink⟩ := h.linked
  simp only [← Topology.onPort?_eq_some_iff filed, Topology.Takes]
  rw [delivers, h.enters, h.leaves]
  dsimp only
  rw [reached?_eq_onPort? hport hlink]
  cases t.topology.onPort? link with
  | none => simp
  | some i => simp [and_comm]

/-- Another topology changes nothing about the way of a frame to the tester. -/
theorem Passes.push {w : Tester} {u : Topology} (h : t.Passes d source destination way link) (pushed : t.push u = .ok w) :
    w.Passes d source destination way link := by
  rw [Bench.push_ok pushed]
  exact ⟨h.enters, h.leaves, h.linked⟩

/-- With a further interface that comes first on the port, the frame arrives if it is for that interface. -/
theorem Passes.delivers_self {w : Tester} {f : TesterInterface} (h : w.Passes d source destination way link)
    (extended : t.topology.Extends w.topology f) (filed : t.topology.Filed) (grounded : t.topology.Grounded)
    (on : f.port = link) (ahead : t.topology.Precedes f.name link) :
    w.delivers d source destination ↔ f.address = destination ∧ way.nextHop = .v4 destination := by
  subst on
  have hfiled := extended.filed filed
  have hfirst := extended.firstOn_self ahead
  rw [h.delivers_iff hfiled, ← extended.takes_self_iff grounded]
  constructor
  · rintro ⟨i, hi, htakes⟩
    rwa [hi.unique hfiled hfirst] at htakes
  · intro htakes
    exact ⟨f, hfirst, htakes⟩

/-- With a further interface anywhere else, what arrived still arrives. -/
theorem Passes.delivers_old {w : Tester} {f : TesterInterface} (h : w.Passes d source destination way link)
    (extended : t.topology.Extends w.topology f) (filed : t.topology.Filed)
    (behind : ¬(f.port = link ∧ t.topology.Precedes f.name link))
    (arrived : ∃ i, t.topology.FirstOn link i ∧ t.topology.Takes i way.nextHop destination) :
    w.delivers d source destination := by
  obtain ⟨i, hfirst, htakes⟩ := arrived
  rw [h.delivers_iff (extended.filed filed)]
  exact ⟨i, extended.firstOn_old hfirst behind, extended.takes_iff.2 htakes⟩

/-- A frame arrives exactly if the first interface by name on the port that the device sends it to takes it. So it
arrives whenever any interface on the port takes it exactly if the first one takes it in that case. A further interface
loses a frame that arrived exactly if it is on the port, comes before all others there, and is not the one that the
frame is for. -/
theorem first_on_port_decides {parts : List Topology.Part} (built : Topology.build parts {} = .ok t.topology)
    (passes : t.Passes d source destination way link) :
    let takes := fun i => t.topology.Takes i way.nextHop destination
    (t.delivers d source destination ↔ ∃ i, t.topology.FirstOn link i ∧ takes i) ∧
    ((t.delivers d source destination ↔ ∃ i ∈ t.topology.interfaces.values, i.port = link ∧ takes i) ↔
      ∀ f i, t.topology.FirstOn link f → i ∈ t.topology.interfaces.values → i.port = link → takes i → takes f) ∧
    ∀ linkEnd port gateway u w, t.topology.interfaces.get? linkEnd.name = none →
      t.topology.addInterface linkEnd port gateway = .ok u → t.push u = .ok w → t.delivers d source destination →
      (¬w.delivers d source destination ↔ port = link ∧ t.topology.Precedes linkEnd.name link ∧
        ¬(linkEnd.address = .ok destination ∧ way.nextHop = .v4 destination)) := by
  intro takes
  have hfiled := Topology.filed_empty.build built
  have hgrounded := Topology.grounded_empty.build built
  have hdelivers := passes.delivers_iff hfiled
  refine ⟨hdelivers, ?_, ?_⟩
  · rw [hdelivers]
    constructor
    · rintro hany f i hf hi hon htakes
      obtain ⟨g, hg, htaken⟩ := hany.2 ⟨i, hi, hon, htakes⟩
      rwa [hf.unique hfiled hg]
    · intro hfirst
      constructor
      · rintro ⟨f, hf, htakes⟩
        exact ⟨f, hf.known, hf.on, htakes⟩
      · rintro ⟨i, hi, hon, htakes⟩
        obtain ⟨f, -, hf⟩ := Topology.exists_firstOn hfiled hi hon
        exact ⟨f, hf, hfirst f i hf hi hon htakes⟩
  · intro linkEnd port gateway u w fresh added pushed arrived
    obtain ⟨f, hextends, hname, rfl, haddress⟩ := Topology.extends_of_addInterface added fresh
    have hpasses := passes.push pushed
    obtain rfl : w.topology = u := by rw [Bench.push_ok pushed]
    rw [← hname, haddress, Except.ok.injEq]
    by_cases hahead : f.port = link ∧ t.topology.Precedes f.name link
    · rw [hpasses.delivers_self hextends hfiled hgrounded hahead.1 hahead.2]
      exact ⟨fun hlost => ⟨hahead.1, hahead.2, hlost⟩, fun hlost => hlost.2.2⟩
    · have hstill := hpasses.delivers_old hextends hfiled hahead (hdelivers.1 arrived)
      exact ⟨fun hlost => absurd hstill hlost, fun hlost => absurd ⟨hlost.1, hlost.2.1⟩ hahead⟩

/-- The two links, and a network behind the second one that is just the tester's address there. -/
def narrow : List Topology.Part :=
  [.interface Testbed.sourceEnd "port1" Testbed.deviceSourceEnd,
    .interface Testbed.destinationEnd "port2" Testbed.deviceDestinationEnd, .network "dst" "dstnet" "192.0.2.6/32"]

/-- Another address of the tester on the second link. -/
def spareEnd (name : String) : LinkEnd := { name, ipv4 := "192.0.2.7" }

/-- A tester with a further interface for that address. -/
def withSpare (t : Tester) (name : String) : Tester :=
  let spare : TesterInterface := ⟨name, "port2", .ofOctets 192 0 2 7, 30, .ofOctets 192 0 2 5⟩
  { t with topology := { t.topology with interfaces := t.topology.interfaces.insert name spare } }

/-- Where the frames to the tester's address on the second link go. -/
def narrowWay : Decision :=
  ⟨"Ethernet4", .v4 (.ofOctets 192 0 2 6), ⟨.v4 (.ofOctets 192 0 2 4), 30, by decide⟩, false⟩

theorem narrow_passes :
    let t := (Journal.onePush narrow).testbed
    t.tester.Passes t.device Testbed.testerSource (.ofOctets 192 0 2 6) narrowWay "port2" := by
  intro t
  exact ⟨by decide +kernel, by decide +kernel, "port2", rfl, fun link => Testbed.get?_links⟩

/-- The spare interface goes behind the other one on the port and loses nothing. -/
theorem first_on_port_decides_spare :
    let t := (Journal.onePush narrow).testbed
    let w := t.tester.withSpare "spare"
    let destination : Ipv4 := .ofOctets 192 0 2 6
    Topology.build narrow {} = .ok t.tester.topology ∧
      t.tester.Passes t.device Testbed.testerSource destination narrowWay "port2" ∧
      t.tester.topology.addInterface (spareEnd "spare") "port2" Testbed.deviceDestinationEnd = .ok w.topology ∧
      t.tester.push w.topology = .ok w ∧ w.delivers t.device Testbed.testerSource destination := by
  intro t w destination
  have hbuilt : Topology.build narrow {} = .ok t.tester.topology := by decide +kernel
  have hadded : t.tester.topology.addInterface (spareEnd "spare") "port2" Testbed.deviceDestinationEnd =
      .ok w.topology := by decide +kernel
  have hpushed : t.tester.push w.topology = .ok w := by decide +kernel
  obtain ⟨-, -, hadding⟩ := first_on_port_decides hbuilt narrow_passes
  have hlost := hadding _ _ _ _ _ (by decide +kernel) hadded hpushed (by decide +kernel)
  have hbehind : ¬t.tester.topology.Precedes "spare" "port2" := by
    intro hahead
    exact absurd (hahead Testbed.testerDestination (by decide +kernel) rfl) (by decide)
  exact ⟨hbuilt, narrow_passes, hadded, hpushed, not_not.1 fun h => hbehind (hlost.1 h).2.1⟩

/-- Under a name that comes first it takes the port over. The frames that arrived are lost, although the interface that
owns their destination is on the port that the device sends them to. -/
theorem earlier_name_intercepts :
    let t := (Journal.onePush narrow).testbed
    let w := t.tester.withSpare "ateSpare"
    let destination : Ipv4 := .ofOctets 192 0 2 6
    t.tester.Passes t.device Testbed.testerSource destination narrowWay "port2" ∧
      t.tester.delivers t.device Testbed.testerSource destination ∧
      t.tester.topology.interfaces.get? "ateSpare" = none ∧
      t.tester.topology.addInterface (spareEnd "ateSpare") "port2" Testbed.deviceDestinationEnd = .ok w.topology ∧
      t.tester.push w.topology = .ok w ∧
      (∃ i ∈ w.topology.interfaces.values, i.port = "port2" ∧ w.topology.Takes i narrowWay.nextHop destination) ∧
      ¬w.delivers t.device Testbed.testerSource destination := by
  intro t w destination
  refine ⟨narrow_passes, by decide +kernel, by decide +kernel, by decide +kernel, by decide +kernel, ?_, by decide +kernel⟩
  exact ⟨Testbed.testerDestination, by decide +kernel, rfl, by decide +kernel, .inr rfl⟩

end Tester

end RouteProgramming
