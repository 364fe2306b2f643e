import RouteProgramming.Client
import RouteProgramming.Profile
import RouteProgramming.Testbed

/-!
What stops a case or the whole suite. A check that fails is no error: it is noted in the report of
its case.
-/

namespace RouteProgramming

inductive SuiteError where
  | config (fault : ConfigFault)
  | testbed (fault : TestbedFault)
  | traffic (fault : TrafficFault)
  | client (error : ClientError)
  | profile (error : ProfileError)
deriving Repr

namespace SuiteError

def message : SuiteError → String
  | .config fault => s!"Configuration error: {fault.message}"
  | .testbed fault => s!"Testbed error: {fault.message}"
  | .traffic fault => s!"Traffic error: {fault.message}"
  | .client error => s!"gRIBI client error: {error.message}"
  | .profile error => s!"Feature profile error: {error.message}"

end SuiteError

end RouteProgramming
