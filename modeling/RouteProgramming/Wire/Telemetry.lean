import RouteProgramming.Codec
import RouteProgramming.Telemetry
import RouteProgramming.Wire.Entry

/-!
JSON form of telemetry. The device's numbers are read as 64-bit words.
-/

namespace RouteProgramming.Wire

open Codec

def encodeDeviceId (id : Nat) : Json := .int id

def deviceId (field : Option Json) : Option Nat := field.bind (Json.natBelow? 18446744073709551616)

instance : Codec Telemetry.NextHopItem where
  encode i := .obj [
    ("index", encodeDeviceId i.id),
    ("programmed_index", encode i.programmedIndex),
    ("ip_address", encode i.address),
    ("interface", encode i.interface)]
  decode? j := do
    let [id, programmedIndex, address, interface] ←
      j.record? ["index", "programmed_index", "ip_address", "interface"] | none
    return ⟨← deviceId id, ← required programmedIndex, ← nullable address, ← nullable interface⟩

instance : Codec Telemetry.Member where
  encode m := .obj [("index", encodeDeviceId m.nextHop), ("weight", encode m.weight)]
  decode? j := do
    let [nextHop, weight] ← j.record? ["index", "weight"] | none
    return ⟨← deviceId nextHop, ← required weight⟩

instance : Codec Telemetry.GroupItem where
  encode g := .obj [
    ("id", encodeDeviceId g.id),
    ("programmed_id", encode g.programmedId),
    ("next_hops", encode g.members)]
  decode? j := do
    let [id, programmedId, members] ← j.record? ["id", "programmed_id", "next_hops"] | none
    return ⟨← deviceId id, ← required programmedId, ← required members⟩

instance : Codec Telemetry.Ipv4Item where
  encode i := .obj [("prefix", encode i.destination), ("next_hop_group", encodeDeviceId i.group)]
  decode? j := do
    let [destination, group] ← j.record? ["prefix", "next_hop_group"] | none
    return ⟨← required destination, ← deviceId group⟩

instance : Codec Telemetry where
  encode t := .obj [
    ("network_instance", encode t.networkInstance),
    ("next_hops", encode t.nextHops),
    ("next_hop_groups", encode t.groups),
    ("ipv4_entries", encode t.ipv4)]
  decode? j := do
    let [networkInstance, nextHops, groups, ipv4] ←
      j.record? ["network_instance", "next_hops", "next_hop_groups", "ipv4_entries"] | none
    return ⟨← required networkInstance, ← required nextHops, ← required groups, ← required ipv4⟩

end RouteProgramming.Wire
