import RouteProgramming.Operation
import RouteProgramming.Text.Quoted

/-!
Messages between a client and the device: the requests and responses of a session's stream, and the
flush call.
-/

namespace RouteProgramming

/-- One request on a session's stream. Its operations form one batch. -/
structure ModifyRequest where
  params : Option Parameters := none
  electionId : Option ElectionId := none
  operations : List Operation := []
deriving DecidableEq, Repr, Inhabited

namespace ModifyRequest

def isEmpty (r : ModifyRequest) : Bool := r.params.isNone && r.electionId.isNone && r.operations.isEmpty

end ModifyRequest

/-- The answer to the parameters of a first request. -/
inductive ParametersResult where
  | ok
  | error (reason : String)
deriving DecidableEq, Repr

namespace ParametersResult

def text : ParametersResult → String
  | .ok => "Ok"
  | .error reason => s!"Error({Text.Quoted.quote reason})"

instance : ToString ParametersResult := ⟨text⟩

end ParametersResult

/-- One response on a session's stream. -/
structure ModifyResponse where
  results : List Acknowledgment := []
  /-- The highest election id known. -/
  electionId : Option ElectionId := none
  paramsResult : Option ParametersResult := none
  /-- Why the stream ends. -/
  error : Option String := none
deriving DecidableEq, Repr, Inhabited

inductive FlushTarget where
  | all
  | networkInstance (name : String)
deriving DecidableEq, Repr

/-- A request to remove everything programmed in the target. -/
structure FlushRequest where
  target : FlushTarget
  /-- Skips the comparison of election ids. -/
  electionOverride : Bool
  electionId : Option ElectionId := none
deriving DecidableEq, Repr

inductive FlushOutcome where
  | ok
  /-- Something could not be removed because it is still referenced. -/
  | nonZeroReferenceRemain
deriving DecidableEq, Repr

structure FlushResponse where
  /-- Nanoseconds since 1970; zero where no clock is at hand. -/
  timestamp : Int64 := 0
  outcome : FlushOutcome
deriving DecidableEq, Repr

end RouteProgramming
