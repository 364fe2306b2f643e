import RouteProgramming.Responder
import RouteProgramming.SuiteConfig
import RouteProgramming.Testbed.LinkEnd

/-!
The device under test: a responder whose forwarding plane gets its connected subnets from the
configuration of the interfaces. The interfaces behind the test ports are fixed.
-/

namespace RouteProgramming

/-- Configuration of an interface with one IPv4 address. -/
structure InterfaceSettings where
  name : String
  description : String
  /-- Left open, the interface is enabled. -/
  enabled : Option Bool
  ipv4Enabled : Option Bool
  address : Ipv4
  length : Nat
deriving DecidableEq, Repr

namespace InterfaceSettings

/-- The settings for one end of a link, enabled explicitly or by default. -/
def ofLinkEnd (name : String) (e : LinkEnd) (explicitEnable : Bool) : Except TestbedFault InterfaceSettings :=
  e.address.map fun address =>
    let enabled := if explicitEnable then some true else none
    { name, description := e.description, enabled, ipv4Enabled := enabled, address, length := e.length }

def isEnabled (s : InterfaceSettings) : Bool := s.enabled.getD true && s.ipv4Enabled.getD true

end InterfaceSettings

structure Device where
  responder : Responder
  interfaces : Table String InterfaceSettings := ∅
deriving DecidableEq, Repr

namespace Device

/-- The test ports and the interfaces behind them. -/
def ports : List (String × String) := [("port1", "Ethernet0"), ("port2", "Ethernet4")]

/-- The schema paths that the device implements, in order. -/
def supportedPaths : List String := [
  "/interfaces/interface/config/description",
  "/interfaces/interface/config/enabled",
  "/interfaces/interface/config/name",
  "/interfaces/interface/config/type",
  "/interfaces/interface/subinterfaces/subinterface/ipv4/addresses/address/config",
  "/interfaces/interface/subinterfaces/subinterface/ipv4/config/enabled",
  "/network-instances/network-instance/afts"]

def create (d : Deviations) : Device where
  responder := .create {
    defaultNetworkInstance := d.defaultNetworkInstance, fibAckSupported := !d.ribAckOnly }

def plane (d : Device) : ForwardingPlane := d.responder.rib.plane

/-- The network instance that packets from the outside are forwarded in. -/
def networkInstance (d : Device) : String := d.responder.config.defaultNetworkInstance

/-- The interface behind a test port. -/
def interfaceOf? (port : String) : Option String := ports.lookup port

def interfaceOf (port : String) : Except TestbedFault String :=
  (interfaceOf? port).elim (.error (.noPort port)) .ok

/-- The test port that an interface belongs to. -/
def portOf? (interface : String) : Option String := (ports.find? (·.2 == interface)).map (·.1)

/-- Gives an interface new settings. Its subnet is connected from then on. -/
def replaceInterface (d : Device) (s : InterfaceSettings) : Except TestbedFault Device :=
  match portOf? s.name with
  | none => .error (.noInterface s.name)
  | some _ =>
    match d.plane.configure s.name s.address s.length s.isEnabled with
    | .error e => .error (.forwarding e)
    | .ok plane => .ok ⟨d.responder.mapPlane (fun _ => plane), d.interfaces.insert s.name s⟩

end Device

end RouteProgramming
