import RouteProgramming.Rib
import RouteProgramming.Wire.Message

/-!
JSON form of what the tables and the forwarding plane hold.
-/

namespace RouteProgramming.Wire

open Codec

def encodeInterface (i : Interface) : Json := .obj [
  ("name", encode i.name),
  ("address", encode i.address),
  ("prefix", encode i.subnet),
  ("enabled", encode i.enabled)]

def encodeDecision (d : Decision) : Json := .obj [
  ("interface", encode d.interface),
  ("next_hop", encode d.nextHop),
  ("matched", encode d.route),
  ("programmed", encode d.programmed)]

def encodeInstalled (h : InstalledEntry) : Json := .obj [
  ("entry", encode h.value.entry),
  ("owner", .int h.value.owner),
  ("device_id", .int h.value.deviceId),
  ("result", encode h.value.outcome),
  ("refs", .int h.holders)]

/-- An installed entry as a client gets it. -/
def encodeRetrieved (networkInstance : String) (h : InstalledEntry) : Json := .obj [
  ("ni", encode networkInstance),
  ("entry", encode h.value.entry),
  ("owner", .int h.value.owner),
  ("result", encode h.value.outcome)]

def encodeRemoval (r : Removal) : Json := .obj [("removed", .int r.removed), ("remaining", .int r.remaining)]

def encodeStats (s : Stats) : Json := .obj [
  ("operations", .int s.operations),
  ("installed", .int s.installed),
  ("failed", .int s.failed),
  ("forwarding_failures", .int s.forwardingFailures)]

end RouteProgramming.Wire
