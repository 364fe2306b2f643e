import RouteProgramming.Table
import RouteProgramming.Testbed.LinkEnd

/-!
What the traffic generator plays: interfaces on its ports, and networks behind the interfaces.
-/

namespace RouteProgramming

/-- An interface on a port of the traffic generator. -/
structure TesterInterface where
  name : String
  port : String
  address : Ipv4
  length : Nat
  /-- Where the frames of this interface are handed over. -/
  gateway : Ipv4
deriving DecidableEq, Repr

/-- A network that is reached through an interface. -/
structure TesterNetwork where
  name : String
  interface : String
  subnet : Cidr
deriving DecidableEq, Repr

structure Topology where
  interfaces : Table String TesterInterface := ∅
  networks : Table String TesterNetwork := ∅
deriving DecidableEq, Repr, Inhabited

namespace Topology

def addInterface (t : Topology) (e : LinkEnd) (port : String) (gateway : LinkEnd) : Except TestbedFault Topology := do
  let address ← e.address
  let gateway ← gateway.address
  return { t with interfaces := t.interfaces.insert e.name ⟨e.name, port, address, e.length, gateway⟩ }

/-- Puts a network behind an interface that is there. Host bits of the prefix are cleared. -/
def addNetwork (t : Topology) (interface name cidr : String) : Except TestbedFault Topology :=
  if t.interfaces.contains interface then
    match Cidr.parse cidr with
    | .error e => .error (.badNetwork name e)
    | .ok c =>
      if c.isV4 then .ok { t with networks := t.networks.insert name ⟨name, interface, c.network⟩ }
      else .error (.networkNotIpv4 name)
  else .error (.networkWithoutInterface name interface)

/-- The first interface, by name, on a port. -/
def onPort? (t : Topology) (port : String) : Option TesterInterface :=
  t.interfaces.values.find? (·.port == port)

/-- Whether an address is that of an interface or lies in a network behind it. -/
def owns (t : Topology) (i : TesterInterface) (a : Ipv4) : Bool :=
  a == i.address || t.networks.values.any (fun n => n.interface == i.name && n.subnet.contains (.v4 a))

end Topology

end RouteProgramming
