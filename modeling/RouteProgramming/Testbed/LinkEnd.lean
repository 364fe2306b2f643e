import RouteProgramming.Forwarding

/-!
The two ends of a link, each with an address on the link's subnet, and what can be wrong with a
testbed.
-/

namespace RouteProgramming

inductive TestbedFault where
  | badAddress (text : String) (cause : AddressError)
  | noPort (name : String)
  | noInterface (name : String)
  | forwarding (cause : ForwardingError)
  | networkWithoutInterface (network interface : String)
  | badNetwork (network : String) (cause : AddressError)
  | networkNotIpv4 (network : String)
  | unlinkedPort (interface port : String)
deriving DecidableEq, Repr

namespace TestbedFault

def message : TestbedFault → String
  | .badAddress text cause => s!"{text}: {cause.message}"
  | .noPort name => s!"DUT has no port {name}"
  | .noInterface name => s!"DUT has no interface {name}"
  | .forwarding cause => cause.message
  | .networkWithoutInterface network interface => s!"network {network} references unknown interface {interface}"
  | .badNetwork network cause => s!"network {network}: {cause.message}"
  | .networkNotIpv4 network => s!"network {network}: only IPv4 networks are supported"
  | .unlinkedPort interface port => s!"interface {interface} is on unlinked ATE port {port}"

end TestbedFault

/-- One end of a link. Its address is text until somebody uses it. -/
structure LinkEnd where
  name : String := ""
  description : String := ""
  ipv4 : String
  length : Nat := 30
deriving DecidableEq, Repr

namespace LinkEnd

/-- The address with the length of its subnet. -/
def cidr (e : LinkEnd) : String := s!"{e.ipv4}/{e.length}"

def address (e : LinkEnd) : Except TestbedFault Ipv4 := (Ipv4.parse e.ipv4).mapError (.badAddress e.ipv4)

end LinkEnd

end RouteProgramming
