import RouteProgramming.Proofs.Responder.Stages
import RouteProgramming.Proofs.Testbed.Addressing
import RouteProgramming.Proofs.Testbed.Topologies

/-! Everything that can happen to a testbed: sessions, calls and changes of the
forwarding plane on the device, new settings of its interfaces, and topologies,
flows and traffic on the tester. If no failure is ever injected, the hardware of
the device mirrors its tables, so that a route which is installed for a network,
and leads to it, carries all its traffic. -/

namespace RouteProgramming

/-! ### Everything that happens -/

/-- A testbed at work: what its device's sessions are doing, and the tester. -/
structure Bench where
  service : Service
  interfaces : Table String InterfaceSettings := ∅
  tester : Tester
deriving DecidableEq, Repr

namespace Bench

inductive Event where
  | serve (event : Service.Event)
  | replaceInterface (settings : InterfaceSettings)
  | push (parts : List Topology.Part)
  | addFlow (name source destination : String)
  | start
  | pass (milliseconds : Nat)
  | stop

def device (b : Bench) : Device := ⟨b.service.responder, b.interfaces⟩

def testbed (b : Bench) : Testbed := ⟨b.device, b.tester⟩

/-- What is refused changes nothing. -/
def step (b : Bench) : Event → Bench
  | .serve event => { b with service := (b.service.step event).2 }
  | .replaceInterface settings =>
    match b.device.replaceInterface settings with
    | .ok d => { b with service := { b.service with responder := d.responder }, interfaces := d.interfaces }
    | .error _ => b
  | .push parts =>
    match (Topology.build parts {}).bind b.tester.push with
    | .ok tester => { b with tester }
    | .error _ => b
  | .addFlow name source destination =>
    match b.tester.addFlow name source destination with
    | .ok tester => { b with tester }
    | .error _ => b
  | .start =>
    match b.tester.start with
    | .ok tester => { b with tester }
    | .error _ => b
  | .pass milliseconds => { b with tester := b.tester.pass milliseconds }
  | .stop => { b with tester := (b.tester.stop b.device).2 }

def run (b : Bench) (events : List Event) : Bench := events.foldl step b

/-- The event is no injection of failures. -/
def Event.Quiet (v : Event) : Prop := ∀ n outside, v = .serve (.plane (.failNext n) outside) → n = 0

/-- What holds of a testbed at any time if no failure is injected. -/
structure Sane (b : Bench) : Prop where
  orderly : b.service.Orderly
  mirrored : b.service.responder.rib.Mirrored
  plain : b.tester.topology.Plain

variable {b : Bench}

theorem mirrored_step {s : Service} {v : Service.Event} {id? : Option (ClientId × ElectionId)} {r : Responder}
    (h : Service.Stepped s v id? r) (hm : s.responder.rib.Mirrored)
    (quiet : ∀ n outside, v = .plane (.failNext n) outside → n = 0) : r.rib.Mirrored := by
  cases h with
  | idle | connected | deafened | settled | presented => exact hm
  | @programmed client operations => exact hm.step (v := .batch (s.responder.context client) operations) nofun
  | @closed _ client =>
    rcases s.responder.rib_disconnect_cases client with ⟨-, hsame⟩ | ⟨-, hremoved⟩
    · rw [hsame]
      exact hm
    · rw [hremoved]
      exact hm.step (v := .removeOwnedBy client) nofun
  | flushed =>
    dsimp only
    rw [Service.run_flushAll]
    exact hm.run fun n hn => by simp at hn
  | @changed change outside => exact hm.step fun n hn => quiet n (hn ▸ outside) (by subst hn; rfl)

theorem topology_runFlows (d : Device) (n : Nat) (flows : List (String × Flow)) (t : Tester) :
    (Tester.runFlows d n flows t).2.topology = t.topology := by
  induction flows generalizing t with
  | nil => rfl
  | cons f flows ih =>
    rw [Tester.runFlows]
    split
    · rfl
    · exact ih _

theorem topology_stop (t : Tester) (d : Device) : (t.stop d).2.topology = t.topology := by
  rw [Tester.stop]
  split
  · rfl
  · exact topology_runFlows ..

theorem push_ok {t u : Tester} {topology : Topology} (h : t.push topology = .ok u) : u = { t with topology } := by
  rw [Tester.push] at h
  split at h
  · contradiction
  · cases h
    rfl

theorem replaceInterface_ok {d e : Device} {s : InterfaceSettings} (h : d.replaceInterface s = .ok e) :
    ∃ plane, d.plane.configure s.name s.address s.length s.isEnabled = .ok plane ∧
      e = ⟨d.responder.mapPlane (fun _ => plane), d.interfaces.insert s.name s⟩ := by
  rw [Device.replaceInterface] at h
  split at h
  case h_1 => contradiction
  case h_2 =>
    split at h
    case h_1 => contradiction
    case h_2 plane hplane =>
      cases h
      exact ⟨plane, hplane, rfl⟩

theorem Sane.step (h : b.Sane) {v : Event} (quiet : v.Quiet) : (b.step v).Sane := by
  cases v with
  | serve event =>
    have hstep := Service.step_cases h.orderly event
    exact ⟨h.orderly.step event, mirrored_step hstep h.mirrored fun n ho he => quiet n ho (he ▸ rfl), h.plain⟩
  | replaceInterface settings =>
    rw [Bench.step]
    split
    case h_2 => exact h
    case h_1 d hd =>
      obtain ⟨plane, hplane, rfl⟩ := replaceInterface_ok hd
      refine ⟨⟨h.orderly.numbered, h.orderly.settled⟩, ?_, h.plain⟩
      have hstep := h.mirrored.step (v := .configure settings.name settings.address settings.length settings.isEnabled)
        nofun
      rw [Rib.step, show b.service.responder.rib.plane.configure _ _ _ _ = .ok plane from hplane] at hstep
      exact hstep
  | push parts =>
    rw [Bench.step]
    split
    case h_2 => exact h
    case h_1 t ht =>
      refine ⟨h.orderly, h.mirrored, ?_⟩
      cases hbuild : Topology.build parts {} with
      | error e => rw [hbuild] at ht; contradiction
      | ok topology =>
        rw [hbuild] at ht
        rw [push_ok ht]
        exact Topology.plain_empty.build hbuild
  | addFlow name source destination =>
    rw [Bench.step]
    split
    case h_2 => exact h
    case h_1 t ht =>
      rw [Tester.addFlow] at ht
      split at ht
      · contradiction
      · split at ht
        · contradiction
        · cases ht
          exact ⟨h.orderly, h.mirrored, h.plain⟩
  | start =>
    rw [Bench.step]
    split
    case h_2 => exact h
    case h_1 t ht =>
      rw [Tester.start] at ht
      split at ht
      · contradiction
      · split at ht
        · contradiction
        · cases ht
          exact ⟨h.orderly, h.mirrored, h.plain⟩
  | pass => exact ⟨h.orderly, h.mirrored, h.plain⟩
  | stop =>
    refine ⟨h.orderly, h.mirrored, ?_⟩
    rw [Bench.step, topology_stop]
    exact h.plain

theorem Sane.run (h : b.Sane) {vs : List Event} (quiet : ∀ v ∈ vs, v.Quiet) : (b.run vs).Sane := by
  induction vs generalizing b with
  | nil => exact h
  | cons v vs ih =>
    exact ih (h.step (quiet v List.mem_cons_self)) fun w hw => quiet w (List.mem_cons_of_mem v hw)

end Bench

/-! ### Testbeds with their past -/

/-- A new device and a new tester with its cabling, and all that happened to the two. -/
structure Journal where
  config : ResponderConfig := {}
  links : List (String × String)
  ratePps : UInt64
  events : List Bench.Event

namespace Journal

def start (j : Journal) : Bench where
  service := { responder := .create j.config }
  tester := .create j.links j.ratePps

def bench (j : Journal) : Bench := j.start.run j.events

def testbed (j : Journal) : Testbed := j.bench.testbed

/-- No failure was ever injected. -/
def Quiet (j : Journal) : Prop := ∀ v ∈ j.events, v.Quiet

theorem start_sane (j : Journal) : j.start.Sane :=
  ⟨⟨nofun, fun _ => .inl rfl⟩, Rib.mirrored_create .., Topology.plain_empty⟩

theorem sane {j : Journal} (quiet : j.Quiet) : j.bench.Sane := j.start_sane.run quiet

/-- Without injected failures, a flow from an interface whose frames the device takes loses nothing on its way to a
network that an installed route carries. -/
theorem installed_route_carries {j : Journal} (quiet : j.Quiet) {flow : Flow} {source : TesterInterface}
    {network : TesterNetwork} {ingress : InterfaceSettings} {route : Cidr} {group : UInt64}
    (origin : j.testbed.tester.topology.interfaces.get? flow.source = some source)
    (target : j.testbed.tester.topology.networks.get? flow.destination = some network)
    (enters : j.testbed.tester.Ingress j.testbed.device source ingress)
    (carries : j.testbed.tester.Carries j.testbed.device
      (j.testbed.device.responder.rib.installed? j.testbed.networkInstance) network route group) (name : String) (n : Nat) :
    j.testbed.tester.runFlow j.testbed.device name flow n = .ok ⟨name, n, n⟩ := by
  have hsane := sane quiet
  exact Tester.runFlow_installed hsane.mirrored carries origin target (hsane.plain _ network target) enters name n

/-! #### Examples -/

/-- The device with the usual addressing, and a topology pushed to its tester. -/
def onePush (parts : List Topology.Part) : Journal where
  links := Testbed.links
  ratePps := 100
  events := [.replaceInterface ⟨"Ethernet0", "DUT to ATE source", none, none, .ofOctets 192 0 2 2, 30⟩,
    .replaceInterface ⟨"Ethernet4", "DUT to ATE destination", none, none, .ofOctets 192 0 2 5, 30⟩, .push parts]

/-- The usual addressing, and a group whose two members leave by an address and by the name of an interface. -/
def twoMembers : Journal where
  links := Testbed.links
  ratePps := 100
  events :=
    let add (id : UInt64) (entry : Entry) : Operation := { id, networkInstance := "DEFAULT", op := .add, entry }
    [.replaceInterface ⟨"Ethernet0", "DUT to ATE source", some true, some true, .ofOctets 192 0 2 2, 30⟩,
      .replaceInterface ⟨"Ethernet4", "DUT to ATE destination", none, none, .ofOctets 192 0 2 5, 30⟩,
      .push [.interface Testbed.sourceEnd "port1" Testbed.deviceSourceEnd,
        .interface Testbed.destinationEnd "port2" Testbed.deviceDestinationEnd,
        .network "dst" "dstnet" "203.0.113.0/24"],
      .serve .connect,
      .serve (.request 1 { operations := [
        add 1 (.nextHop { index := 42, address := some (.v4 (.ofOctets 192 0 2 6)) }),
        add 2 (.nextHop { index := 43, interface := some "Ethernet4" }),
        add 3 (.nextHopGroup { id := 10, members := Table.ofList [(42, 1), (43, 3)] }),
        add 4 (.ipv4 ⟨Testbed.destinationPrefix, 10⟩)] }),
      .serve (.proceed 1), .serve (.proceed 1)]

/-- What the hardware of that testbed has. -/
def twoMembersFib : Fib where
  nextHops := Table.ofList [(42, { index := 42, address := some (.v4 (.ofOctets 192 0 2 6)) }),
    (43, { index := 43, interface := some "Ethernet4" })]
  groups := Table.ofList [(10, ⟨10, Table.ofList [(42, 1), (43, 3)]⟩)]
  routes := Table.ofList [(Testbed.destinationPrefix, 10)]

theorem twoMembers_wired : twoMembers.testbed.Wired := ⟨rfl, ⟨_, rfl, rfl, rfl⟩, rfl, rfl⟩

theorem twoMembers_leadsTo {index : UInt64} {e : NextHop} (h : twoMembersFib.get? (.nextHop index) = some (.nextHop e)) :
    twoMembers.testbed.tester.LeadsTo twoMembers.testbed.device Testbed.testerNetwork e := by
  have hrow := Table.get?_eq_some_iff.1 (Tester.get?_nextHop.1 h)
  rcases List.mem_cons.1 hrow with hrow | hrow
  · cases hrow
    exact twoMembers_wired.leadsTo_address rfl rfl
  · cases List.mem_singleton.1 hrow
    exact twoMembers_wired.leadsTo_name rfl rfl

theorem installed_route_carries_twoMembers :
    let t := twoMembers.testbed
    let installed := t.device.responder.rib.installed? "DEFAULT"
    twoMembers.Quiet ∧ installed (.ipv4 Testbed.destinationPrefix) = some (.ipv4 ⟨Testbed.destinationPrefix, 10⟩) ∧
      installed (.nextHopGroup 10) = some (.nextHopGroup ⟨10, Table.ofList [(42, 1), (43, 3)]⟩) ∧
      (∃ ingress, t.tester.Ingress t.device Testbed.testerSource ingress) ∧
      t.tester.Carries t.device installed Testbed.testerNetwork Testbed.destinationPrefix 10 ∧
      t.tester.runFlow t.device "Flow" ⟨"ateSrc", "dstnet"⟩ 1000 = .ok ⟨"Flow", 1000, 1000⟩ := by
  intro t installed
  have hquiet : twoMembers.Quiet := by
    intro v hv n outside he
    subst he
    simp [twoMembers] at hv
  have hinstalled : installed = twoMembersFib.get? := funext fun k => ((sane hquiet).mirrored.same "DEFAULT" k).symm
  obtain ⟨ingress, henters⟩ := twoMembers_wired.ingress
  have hcarries : t.tester.Carries t.device installed Testbed.testerNetwork Testbed.destinationPrefix 10 := by
    rw [hinstalled]
    refine twoMembers_wired.carries (fun route id => ?_) fun g _ index _ e he => twoMembers_leadsTo he
    rw [Tester.get?_route]
    exact Table.get?_singleton
  exact ⟨hquiet, rfl, rfl, ⟨ingress, henters⟩, hcarries,
    installed_route_carries hquiet rfl rfl henters hcarries "Flow" 1000⟩

end Journal

end RouteProgramming
