import RouteProgramming.Codec
import RouteProgramming.Profile

/-!
JSON form of profiles and of what a device does not support of them.
-/

namespace RouteProgramming.Wire

open Codec

instance : Codec FeatureId where
  encode i := .obj [("name", encode i.name), ("version", encode i.version)]
  decode? j := do
    let [name, version] ← j.record? ["name", "version"] | none
    return ⟨← required name, ← required version⟩

instance : Codec Profile where
  encode p := .obj [
    ("id", encode p.id),
    ("config_paths", encode p.configPaths),
    ("telemetry_paths", encode p.telemetryPaths),
    ("dependencies", encode p.dependencies)]
  decode? j := do
    let [id, config, telemetry, dependencies] ←
      j.record? ["id", "config_paths", "telemetry_paths", "dependencies"] | none
    return ⟨← required id, ← required config, ← required telemetry, ← required dependencies⟩

def encodeSupport (r : SupportReport) : Json := .obj [
  ("profile", encode r.profile),
  ("unsupported_config", encode r.unsupportedConfig),
  ("unsupported_telemetry", encode r.unsupportedTelemetry)]

end RouteProgramming.Wire
