import RouteProgramming.Binary64
import RouteProgramming.Testbed.Device
import RouteProgramming.Testbed.Topology

/-!
The traffic generator. Its ports are linked to ports of the device. A flow sends frames from an
interface to the addresses of a network in turn; every frame is handed to the interface's gateway
and goes where the device forwards it.
-/

namespace RouteProgramming

inductive TrafficFault where
  | alreadyRunning
  | noFlows
  | notRunning
  | unknownSource (flow interface : String)
  | unknownDestination (flow network : String)
  | sourceVanished (flow : String)
  | destinationVanished (flow : String)
  | noCounters (flow : String)
deriving DecidableEq, Repr

namespace TrafficFault

def message : TrafficFault → String
  | .alreadyRunning => "traffic already running"
  | .noFlows => "no flows defined"
  | .notRunning => "traffic not running"
  | .unknownSource flow interface => s!"flow {flow}: unknown source interface {interface}"
  | .unknownDestination flow network => s!"flow {flow}: unknown destination network {network}"
  | .sourceVanished flow => s!"flow {flow}: source interface vanished"
  | .destinationVanished flow => s!"flow {flow}: destination network vanished"
  | .noCounters flow => s!"no counters for flow {flow}"

end TrafficFault

/-- A flow from an interface to a network, both by name. -/
structure Flow where
  source : String
  destination : String
deriving DecidableEq, Repr

/-- Frames of a flow, as of the last stop. -/
structure FlowCounters where
  name : String
  sent : Nat
  received : Nat
deriving DecidableEq, Repr, Inhabited

namespace FlowCounters

/-- Whether frames are missing. A flow that sent nothing counts as lost. -/
def isLossy (c : FlowCounters) : Bool := c.sent == 0 || c.received < c.sent

/-- The share of frames that are missing, in percent. -/
def loss (c : FlowCounters) : Rat :=
  if c.sent = 0 then 100
  else
    let lost := Binary64.round (c.sent - c.received : Nat)
    Binary64.round (Binary64.round (lost * 100) / Binary64.round c.sent)

end FlowCounters

structure Tester where
  /-- Ports of the generator and the ports of the device that they are linked to. -/
  links : Table String String
  /-- Frames per second of every flow. -/
  ratePps : UInt64
  topology : Topology := {}
  flows : Table String Flow := ∅
  counters : Table String FlowCounters := ∅
  /-- For how many milliseconds traffic has been running. -/
  running : Option Nat := none
deriving DecidableEq, Repr

namespace Tester

def create (links : List (String × String)) (ratePps : UInt64) : Tester := { links := .ofList links, ratePps }

/-- Takes a topology whose interfaces are all on linked ports. -/
def push (t : Tester) (topology : Topology) : Except TestbedFault Tester :=
  match topology.interfaces.values.find? (fun i => !t.links.contains i.port) with
  | some i => .error (.unlinkedPort i.name i.port)
  | none => .ok { t with topology }

/-- Defines a flow, in place of one of the same name. -/
def addFlow (t : Tester) (name source destination : String) : Except TrafficFault Tester :=
  if !t.topology.interfaces.contains source then .error (.unknownSource name source)
  else if !t.topology.networks.contains destination then .error (.unknownDestination name destination)
  else .ok { t with flows := t.flows.insert name ⟨source, destination⟩ }

def isRunning (t : Tester) : Bool := t.running.isSome

def start (t : Tester) : Except TrafficFault Tester :=
  if t.isRunning then .error .alreadyRunning
  else if t.flows.isEmpty then .error .noFlows
  else .ok { t with running := some 0 }

/-- Lets time pass. -/
def pass (t : Tester) (milliseconds : Nat) : Tester := { t with running := t.running.map (· + milliseconds) }

/-! ### Frames -/

/-- How many frames a flow of a rate sends in so many milliseconds. -/
abbrev Clock := UInt64 → Nat → Nat

/-- How many frames a flow sends in a time: at least one, and a part of a frame counts as one. -/
def frames (ratePps : UInt64) (milliseconds : Nat) : Nat :=
  let whole := Binary64.round (milliseconds / 1000 : Nat)
  let seconds := Binary64.round (whole + Binary64.round ((milliseconds % 1000 : Nat) / 1000))
  let count := (Binary64.round (Binary64.round ratePps.toNat * seconds)).ceil.toNat
  max 1 (min count 18446744073709551615)

/-- Whether the device takes frames from an interface: it has the gateway's address and is enabled. -/
def enters (t : Tester) (d : Device) (source : TesterInterface) : Bool :=
  match ((t.links.get? source.port).bind Device.interfaceOf?).bind d.interfaces.get? with
  | some ingress => ingress.isEnabled && ingress.address == source.gateway
  | none => false

/-- The interface that frames reach when the device sends them out of one of its own. -/
def reached? (t : Tester) (interface : String) : Option TesterInterface := do
  let port ← Device.portOf? interface
  let link ← t.links.rows.find? (·.2 == port)
  t.topology.onPort? link.1

/-- Whether a frame from `source` to `destination` arrives: the device hands it to an interface that
owns the destination, or to the destination itself. -/
def delivers (t : Tester) (d : Device) (source : TesterInterface) (destination : Ipv4) : Bool :=
  t.enters d source &&
    match d.plane.lookup d.networkInstance destination with
    | none => false
    | some way =>
      match t.reached? way.interface with
      | none => false
      | some sink =>
        (way.nextHop == .v4 sink.address || way.nextHop == .v4 destination) && t.topology.owns sink destination

/-- How many of the first `n` hosts get a frame. -/
def countFirst (arrives : Ipv4 → Bool) (hosts : Hosts) (n : Nat) : Nat :=
  (List.range n).countP (fun j => arrives (Ipv4.ofNat (hosts.next + j)))

/-- How many of `n` frames arrive that go to the hosts in turn, in as many rounds as it takes. -/
def arrivals (arrives : Ipv4 → Bool) (hosts : Hosts) (n : Nat) : Nat :=
  if n < hosts.left then countFirst arrives hosts n
  else n / hosts.left * countFirst arrives hosts hosts.left + countFirst arrives hosts (n % hosts.left)

def runFlow (t : Tester) (d : Device) (name : String) (flow : Flow) (n : Nat) : Except TrafficFault FlowCounters :=
  match t.topology.interfaces.get? flow.source, t.topology.networks.get? flow.destination with
  | none, _ => .error (.sourceVanished name)
  | some _, none => .error (.destinationVanished name)
  | some source, some network => .ok ⟨name, n, arrivals (t.delivers d source) network.subnet.hosts n⟩

/-- Runs flows one after the other until one fails. -/
def runFlows (d : Device) (n : Nat) : List (String × Flow) → Tester → Except TrafficFault Unit × Tester
  | [], t => (.ok (), t)
  | (name, flow) :: rest, t =>
    match t.runFlow d name flow n with
    | .error e => (.error e, t)
    | .ok c => runFlows d n rest { t with counters := t.counters.insert name c }

/-- Stops traffic and forwards all frames sent since the start through the device. -/
def stop (t : Tester) (d : Device) (clock : Clock := frames) : Except TrafficFault Unit × Tester :=
  match t.running with
  | none => (.error .notRunning, t)
  | some milliseconds =>
    runFlows d (clock t.ratePps milliseconds) t.flows.rows { t with running := none }

end Tester

end RouteProgramming
