import RouteProgramming.Codec
import RouteProgramming.Testbed
import RouteProgramming.Text.Shortest
import RouteProgramming.Wire.Entry

/-!
JSON form of the testbed: settings of interfaces, what the traffic generator plays, and its counters.
-/

namespace RouteProgramming.Wire

open Codec

def encodeSettings (s : InterfaceSettings) : Json := .obj [
  ("name", encode s.name),
  ("description", encode s.description),
  ("interface_type", .str "ethernetCsmacd"),
  ("enabled", encode s.enabled),
  ("ipv4_enabled", encode s.ipv4Enabled),
  ("ipv4_address", encode s.address),
  ("ipv4_prefix_len", .int s.length)]

def encodeTesterInterface (i : TesterInterface) : Json := .obj [
  ("name", encode i.name),
  ("port", encode i.port),
  ("ipv4_address", encode i.address),
  ("ipv4_prefix_len", .int i.length),
  ("gateway", encode i.gateway)]

def encodeTesterNetwork (n : TesterNetwork) : Json := .obj [
  ("name", encode n.name),
  ("interface", encode n.interface),
  ("prefix", encode n.subnet)]

def encodeCounters (c : FlowCounters) : Json := .obj [
  ("name", encode c.name),
  ("tx_frames", .int c.sent),
  ("rx_frames", .int c.received)]

/-- The loss with as many places as it needs. -/
def encodeLoss (c : FlowCounters) : Json :=
  let s := Text.Shortest.ofRat c.loss
  .decimal s.digits s.places

/-- The counters and what follows from them. -/
def encodeFlow (c : FlowCounters) : Json := .obj [("stats", encodeCounters c), ("loss_pct", encodeLoss c)]

end RouteProgramming.Wire
