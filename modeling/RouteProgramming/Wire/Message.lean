import RouteProgramming.Message
import RouteProgramming.Wire.Entry

/-!
JSON form of operations, acknowledgments, session parameters and the messages made of them.
-/

namespace RouteProgramming.Wire

open Codec

instance : Codec ElectionId where
  encode e := .obj [("high", encode e.high), ("low", encode e.low)]
  decode? j := do
    let [high, low] ← j.record? ["high", "low"] | none
    return ⟨← required high, ← required low⟩

instance : Codec Redundancy where
  encode r := .str r.word
  decode? := Json.choice?
    [("ALL_PRIMARY", .allPrimary), ("SINGLE_ELECTED_PRIMARY", .singleElectedPrimary)]

instance : Codec Persistence where
  encode p := .str p.word
  decode? := Json.choice? [("DELETE", .delete), ("PRESERVE", .preserve)]

instance : Codec AckType where
  encode a := .str a.word
  decode? := Json.choice? [("RIB", .rib), ("RIB_AND_FIB", .ribAndFib)]

instance : Codec Parameters where
  encode p := .obj [
    ("redundancy", encode p.redundancy),
    ("persistence", encode p.persistence),
    ("ack_type", encode p.ackType)]
  decode? j := do
    let [redundancy, persistence, ackType] ← j.record? ["redundancy", "persistence", "ack_type"] | none
    return ⟨← required redundancy, ← required persistence, ← required ackType⟩

instance : Codec OperationType where
  encode o := .str o.word
  decode? := Json.choice? [("ADD", .add), ("REPLACE", .replace), ("DELETE", .delete)]

instance : Codec Outcome where
  encode o := .str o.word
  decode? := Json.choice?
    [("FAILED", .failed), ("INSTALLED_IN_RIB", .installedInRib), ("INSTALLED_IN_FIB", .installedInFib)]

instance : Codec Operation where
  encode o := .obj [
    ("id", encode o.id),
    ("network_instance", encode o.networkInstance),
    ("op", encode o.op),
    ("entry", encode o.entry),
    ("election_id", encode o.electionId)]
  decode? j := do
    let [id, networkInstance, op, entry, electionId] ←
      j.record? ["id", "network_instance", "op", "entry", "election_id"] | none
    return ⟨← required id, ← required networkInstance, ← required op, ← required entry, ← nullable electionId⟩

instance : Codec Acknowledgment where
  encode a := .obj [
    ("id", encode a.id),
    ("op", encode a.op),
    ("key", encode a.key),
    ("result", encode a.outcome),
    ("timestamp_ns", encode a.timestamp),
    ("error", encode a.error)]
  decode? j := do
    let [id, op, key, outcome, timestamp, error] ←
      j.record? ["id", "op", "key", "result", "timestamp_ns", "error"] | none
    return ⟨← required id, ← required op, ← required key, ← required outcome, ← required timestamp,
      ← nullable error⟩

instance : Codec ParametersResult where
  encode
    | .ok => .str "Ok"
    | .error reason => .obj [("Error", encode reason)]
  decode? j :=
    match j.name?, j.variant? with
    | some "Ok", _ => some .ok
    | _, some ("Error", reason) => (decode? reason).map .error
    | _, _ => none

instance : Codec ModifyRequest where
  encode r := .obj [
    ("params", encode r.params),
    ("election_id", encode r.electionId),
    ("operations", encode r.operations)]
  decode? j := do
    let [params, electionId, operations] ← j.record? ["params", "election_id", "operations"] | none
    return ⟨← nullable params, ← nullable electionId, ← required operations⟩

instance : Codec ModifyResponse where
  encode r := .obj [
    ("results", encode r.results),
    ("election_id", encode r.electionId),
    ("session_params_result", encode r.paramsResult),
    ("error", encode r.error)]
  decode? j := do
    let [results, electionId, paramsResult, error] ←
      j.record? ["results", "election_id", "session_params_result", "error"] | none
    return ⟨← required results, ← nullable electionId, ← nullable paramsResult, ← nullable error⟩

instance : Codec FlushTarget where
  encode
    | .all => .str "All"
    | .networkInstance name => .obj [("NetworkInstance", encode name)]
  decode? j :=
    match j.name?, j.variant? with
    | some "All", _ => some .all
    | _, some ("NetworkInstance", name) => (decode? name).map .networkInstance
    | _, _ => none

instance : Codec FlushRequest where
  encode r := .obj [
    ("target", encode r.target),
    ("election_override", encode r.electionOverride),
    ("election_id", encode r.electionId)]
  decode? j := do
    let [target, electionOverride, electionId] ←
      j.record? ["target", "election_override", "election_id"] | none
    return ⟨← required target, ← required electionOverride, ← nullable electionId⟩

instance : Codec FlushOutcome where
  encode
    | .ok => .str "OK"
    | .nonZeroReferenceRemain => .str "NON_ZERO_REFERENCE_REMAIN"
  decode? := Json.choice? [("OK", .ok), ("NON_ZERO_REFERENCE_REMAIN", .nonZeroReferenceRemain)]

instance : Codec FlushResponse where
  encode r := .obj [("timestamp_ns", encode r.timestamp), ("result", encode r.outcome)]
  decode? j := do
    let [timestamp, outcome] ← j.record? ["timestamp_ns", "result"] | none
    return ⟨← required timestamp, ← required outcome⟩

end RouteProgramming.Wire
