import RouteProgramming.Client.Received
import RouteProgramming.Wire.Message

/-!
JSON form of what a client has received.
-/

namespace RouteProgramming.Wire

open Codec

/-- Every field but the timestamp. -/
def receivedFields (r : Received) : List (String × Json) := [
  ("operation_id", encode r.operationId),
  ("op_type", encode r.op),
  ("key", encode r.key),
  ("programming_result", encode r.outcome),
  ("session_params", encode r.params),
  ("current_election_id", encode r.electionId),
  ("details", encode r.details)]

/-- The fields with the text that says the same. -/
def encodeReceived (r : Received) : Json := .obj (receivedFields r ++ [("text", .str r.text)])

instance : Codec Received where
  encode r := .obj (("timestamp_ns", encode r.timestamp) :: receivedFields r)
  decode? j := do
    let [timestamp, operationId, op, key, outcome, params, electionId, details] ←
      j.record? ["timestamp_ns", "operation_id", "op_type", "key", "programming_result", "session_params",
        "current_election_id", "details"] | none
    return {
      timestamp := (← nullable timestamp).getD 0
      operationId := ← nullable operationId
      op := ← nullable op
      key := ← nullable key
      outcome := ← nullable outcome
      params := ← nullable params
      electionId := ← nullable electionId
      details := ← nullable details }

end RouteProgramming.Wire
