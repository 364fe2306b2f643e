import RouteProgramming.Profile.Registry

/-!
The profiles that come with the library: interfaces, and the routing protocol that builds on them.
-/

namespace RouteProgramming.Profile

def interfaceConfig : List String := [
  "/config/name",
  "/config/description",
  "/config/type",
  "/config/enabled",
  "/config/mtu",
  "/subinterfaces/subinterface/ipv4/addresses/address/config/ip",
  "/subinterfaces/subinterface/ipv4/addresses/address/config/prefix-length"]

def interfaceTelemetry : List String := [
  "/state/oper-status",
  "/state/admin-status",
  "/state/counters/in-pkts",
  "/state/counters/out-pkts"]

def interfaces : Profile where
  id := ⟨"interfaces", 1⟩
  configPaths := interfaceConfig.map ("/interfaces/interface" ++ ·)
  telemetryPaths := interfaceTelemetry.map ("/interfaces/interface" ++ ·)
  dependencies := []

def bgpConfig : List String := [
  "/global/config/as",
  "/global/config/router-id",
  "/global/graceful-restart/config/enabled",
  "/global/afi-safis/afi-safi/config/afi-safi-name",
  "/global/afi-safis/afi-safi/config/enabled",
  "/global/use-multiple-paths/ebgp/config/allow-multiple-as",
  "/peer-groups/peer-group/config/peer-group-name",
  "/peer-groups/peer-group/config/peer-as",
  "/peer-groups/peer-group/config/local-as",
  "/peer-groups/peer-group/config/auth-password",
  "/peer-groups/peer-group/timers/config/hold-time",
  "/peer-groups/peer-group/timers/config/keepalive-interval",
  "/peer-groups/peer-group/afi-safis/afi-safi/apply-policy/config/import-policy",
  "/peer-groups/peer-group/afi-safis/afi-safi/apply-policy/config/export-policy",
  "/neighbors/neighbor/config/neighbor-address",
  "/neighbors/neighbor/config/peer-as",
  "/neighbors/neighbor/config/peer-group",
  "/neighbors/neighbor/config/enabled",
  "/neighbors/neighbor/config/description",
  "/neighbors/neighbor/transport/config/local-address",
  "/neighbors/neighbor/transport/config/passive-mode",
  "/neighbors/neighbor/ebgp-multihop/config/multihop-ttl",
  "/neighbors/neighbor/afi-safis/afi-safi/config/enabled"]

def bgpTelemetry : List String := [
  "/global/state/as",
  "/global/state/router-id",
  "/global/state/total-paths",
  "/global/state/total-prefixes",
  "/neighbors/neighbor/state/session-state",
  "/neighbors/neighbor/state/established-transitions",
  "/neighbors/neighbor/state/last-established",
  "/neighbors/neighbor/state/supported-capabilities",
  "/neighbors/neighbor/state/messages/received/UPDATE",
  "/neighbors/neighbor/state/messages/sent/UPDATE",
  "/neighbors/neighbor/afi-safis/afi-safi/state/prefixes/received",
  "/neighbors/neighbor/afi-safis/afi-safi/state/prefixes/sent",
  "/neighbors/neighbor/afi-safis/afi-safi/state/prefixes/installed",
  "/neighbors/neighbor/timers/state/negotiated-hold-time",
  "/rib/afi-safis/afi-safi/ipv4-unicast/loc-rib/routes/route/state/prefix"]

/-- Where the nodes of the protocol live. -/
def bgpRoot : String := "/network-instances/network-instance/protocols/protocol/bgp"

def bgp : Profile where
  id := ⟨"bgp", 1⟩
  configPaths := bgpConfig.map (bgpRoot ++ ·)
  telemetryPaths := bgpTelemetry.map (bgpRoot ++ ·)
  dependencies := [interfaces.id]

def bundled : List Profile := [interfaces, bgp]

end RouteProgramming.Profile

namespace RouteProgramming.Registry

def bundled : Registry := ⟨Table.ofList (Profile.bundled.map (fun p => (p.id, p)))⟩

end RouteProgramming.Registry
