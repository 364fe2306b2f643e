import RouteProgramming.Testbed.Tester

/-!
The device and the traffic generator, wired together: port 1 carries the source subnet
192.0.2.0/30, port 2 the destination subnet 192.0.2.4/30, and the network 203.0.113.0/24 lies behind
the generator's port 2.
-/

namespace RouteProgramming

structure Testbed where
  device : Device
  tester : Tester
deriving DecidableEq, Repr

namespace Testbed

/-! ### The fixed addressing -/

def sourceEnd : LinkEnd := { name := "ateSrc", ipv4 := "192.0.2.1" }

def deviceSourceEnd : LinkEnd := { description := "DUT to ATE source", ipv4 := "192.0.2.2" }

def deviceDestinationEnd : LinkEnd := { description := "DUT to ATE destination", ipv4 := "192.0.2.5" }

def destinationEnd : LinkEnd := { name := "dst", ipv4 := "192.0.2.6" }

/-- Name of the network behind the destination. -/
def destinationNetwork : String := "dstnet"

/-- The prefix of that network. -/
def destinationPrefix : Cidr := ⟨.v4 (.ofOctets 203 0 113 0), 24, by decide⟩

/-- Ports of the generator and the ports of the device that they are linked to. -/
def links : List (String × String) := [("port1", "port1"), ("port2", "port2")]

/-! ### Setting up -/

/-- Gives a port of the device the address of its link end. -/
def configurePort (d : Device) (explicitEnable : Bool) (port : String) (e : LinkEnd) : Except TestbedFault Device := do
  let interface ← Device.interfaceOf port
  d.replaceInterface (← InterfaceSettings.ofLinkEnd interface e explicitEnable)

/-- Addresses both ports of the device. -/
def configureDevice (d : Device) (deviations : Deviations) : Except TestbedFault Device := do
  let d ← configurePort d deviations.interfaceEnabled "port1" deviceSourceEnd
  configurePort d deviations.interfaceEnabled "port2" deviceDestinationEnd

/-- One interface on each port, and the network behind the second. -/
def topology : Except TestbedFault Topology := do
  let t : Topology := {}
  let t ← t.addInterface sourceEnd "port1" deviceSourceEnd
  let t ← t.addInterface destinationEnd "port2" deviceDestinationEnd
  t.addNetwork destinationEnd.name destinationNetwork destinationPrefix.text

def create (c : SuiteConfig) : Except TestbedFault Testbed := do
  let device ← configureDevice (Device.create c.deviations) c.deviations
  let tester ← (Tester.create links c.traffic.ratePps).push (← topology)
  return { device, tester }

/-- The network instance that the cases program. -/
def networkInstance (t : Testbed) : String := t.device.networkInstance

/-- Lets time pass, for which traffic goes on if it is running. -/
def pass (t : Testbed) (milliseconds : Nat) : Testbed := { t with tester := t.tester.pass milliseconds }

end Testbed

end RouteProgramming
