import RouteProgramming.Codec
import RouteProgramming.SuiteConfig

/-!
JSON form of the suite's settings. A setting that is missing has its default.
-/

namespace RouteProgramming.Wire

open Codec

instance : Codec Deviations where
  encode d := .obj [
    ("default_network_instance", encode d.defaultNetworkInstance),
    ("gribi_rib_ack_only", encode d.ribAckOnly),
    ("gribi_preserve_only", encode d.preserveOnly),
    ("interface_enabled", encode d.interfaceEnabled)]
  decode? j := do
    let [name, ribAckOnly, preserveOnly, interfaceEnabled] ← j.partialRecord?
      ["default_network_instance", "gribi_rib_ack_only", "gribi_preserve_only", "interface_enabled"] | none
    return ⟨← withDefault "DEFAULT" name, ← withDefault false ribAckOnly, ← withDefault false preserveOnly,
      ← withDefault false interfaceEnabled⟩

instance : Codec Timing where
  encode t := .obj [("await_timeout_secs", encode t.awaitSeconds)]
  decode? j := do
    let [awaitSeconds] ← j.partialRecord? ["await_timeout_secs"] | none
    return ⟨← withDefault 120 awaitSeconds⟩

instance : Codec TrafficSettings where
  encode t := .obj [("duration_ms", encode t.durationMs), ("rate_pps", encode t.ratePps)]
  decode? j := do
    let [durationMs, ratePps] ← j.partialRecord? ["duration_ms", "rate_pps"] | none
    return ⟨← withDefault 15000 durationMs, ← withDefault 1000 ratePps⟩

instance : Codec SuiteConfig where
  encode c := .obj [("deviations", encode c.deviations), ("timing", encode c.timing), ("traffic", encode c.traffic)]
  decode? j := do
    let [deviations, timing, traffic] ← j.partialRecord? ["deviations", "timing", "traffic"] | none
    return ⟨← withDefault {} deviations, ← withDefault {} timing, ← withDefault {} traffic⟩

end RouteProgramming.Wire
