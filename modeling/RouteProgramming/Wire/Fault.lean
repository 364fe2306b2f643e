import RouteProgramming.Json
import RouteProgramming.SuiteError

/-!
The kinds under which failures are reported, one word for each cause that a caller may want to tell
from the others. The message beside it is for people.
-/

namespace RouteProgramming.Wire

/-- Errors with a kind and a message. What the system says of a file is not repeated. -/
class Fault (ε : Type) where
  kind : ε → String
  message : ε → Option String

def Fault.encode {ε : Type} [Fault ε] (e : ε) : Json :=
  .obj (("error", .str (Fault.kind e)) :: ((Fault.message e).map (fun m => ("message", Json.str m))).toList)

instance : Fault AddressError where
  kind
    | .notAnAddress _ => "InvalidIpAddress"
    | .notAPrefix _ => "InvalidIpPrefix"
    | .tooLong _ _ => "InvalidPrefixLength"
  message e := some e.message

instance : Fault ProtocolFault where
  kind
    | .entry _ => "InvalidEntry"
    | .preserveWithoutElection => "InvalidParameters"
    | .zeroElectionId => "InvalidElectionId"
  message e := some e.message

instance : Fault HoldError where
  kind
    | .absent => "KeyNotFound"
    | .notHeld => "RefCountUnderflow"
    | .stillHeld _ => "StillReferenced"
  message e := some e.message

instance : Fault ForwardingError where
  kind
    | .injected => "Programming"
    | .missing _ => "MissingDependency"
    | .badInterface _ _ => "InvalidInterface"
  message e := some e.message

instance : Fault Refusal where
  kind
    | .protocol _ => "Protocol"
    | .fibAckUnsupported | .disagreement _ _ => "UnsupportedParameters"
    | .lateParameters => "ParamsAfterFirstRequest"
    | .electionNotUsed => "Election"
    | .unknownNetworkInstance _ => "UnknownNetworkInstance"
    | .flushWithZeroId | .flushWithLowId _ _ | .flushWithoutId => "FlushRejected"
    | .sessionClosed => "SessionClosed"
  message e := some e.message

instance : Fault ClientError where
  kind
    | .noStub => "NoStub"
    | .notStarted => "NotStarted"
    | .invalidConnection _ => "InvalidConnection"
    | .invalidEntry _ => "InvalidEntry"
    | .timeout _ _ => "AwaitTimeout"
    | .paramsRejected _ => "ParamsRejected"
    | .session _ => "Session"
    | .sessionClosed => "SessionClosed"
    | .refused _ => "Rpc"
  message e := some e.message

instance : Fault NoMatch := ⟨fun _ => "ChkError", fun e => some e.message⟩

instance : Fault ProfileError where
  kind
    | .parse _ _ => "Parse"
    | .invalidPath _ _ => "InvalidPath"
    | .missingField _ => "MissingField"
    | .unknownField _ _ => "UnknownField"
    | .unreadable _ => "Io"
    | .duplicate _ => "Duplicate"
    | .notFound _ => "NotFound"
    | .missingDependency _ _ => "MissingDependency"
    | .dependencyCycle _ => "DependencyCycle"
  message
    | .unreadable _ => none
    | e => some e.message

instance : Fault ConfigFault where
  kind
    | .unreadable => "Io"
    | _ => "Configuration"
  message
    | .unreadable | .malformed => none
    | e => some (SuiteError.config e).message

instance : Fault TestbedFault := ⟨fun _ => "Testbed", fun e => some (SuiteError.testbed e).message⟩

instance : Fault TrafficFault := ⟨fun _ => "Traffic", fun e => some (SuiteError.traffic e).message⟩

instance : Fault SuiteError where
  kind
    | .config e => Fault.kind e
    | .testbed e => Fault.kind e
    | .traffic e => Fault.kind e
    | .client _ => "Client"
    | .profile _ => "Profile"
  message
    | .config e => Fault.message e
    | e => some e.message

end RouteProgramming.Wire
