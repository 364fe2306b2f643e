/-!
The cases of the suite. Each programs a next-hop and a group, most of them a route as well, and looks
at how the device acknowledges operations that depend on each other.
-/

namespace RouteProgramming

inductive Case where
  /-- A next-hop and a group in one batch. -/
  | group
  /-- A route ahead of its group in one batch. -/
  | routeBeforeGroup
  /-- A group ahead of its route in one batch. -/
  | groupBeforeRoute
  /-- A route added, deleted and added in one batch. -/
  | addDeleteAdd
deriving DecidableEq, Repr, Inhabited

namespace Case

/-- Every case, in the order in which the suite runs them. -/
def all : List Case := [.group, .routeBeforeGroup, .groupBeforeRoute, .addDeleteAdd]

def name : Case → String
  | .group => "Modify NHG"
  | .routeBeforeGroup => "Modify IPv4 and NHG"
  | .groupBeforeRoute => "Modify NHG and IPv4"
  | .addDeleteAdd => "Modify IPv4 Add Del Add"

def description : Case → String
  | .group =>
    "A NextHopGroup referencing a NextHop is acknowledged as installed and is reported through the AFT telemetry."
  | .routeBeforeGroup =>
    "A single ModifyRequest with an IPv4Entry referencing NextHopGroup 10 ahead of the operation defining " ++
      "NextHopGroup 10 fails the IPv4Entry."
  | .groupBeforeRoute =>
    "A single ModifyRequest with NextHopGroup 10 pointing to a NextHop on ATE port-2, then an IPv4Entry " ++
      "referencing it, is installed and verified through telemetry and traffic."
  | .addDeleteAdd =>
    "A single ModifyRequest adding, deleting and adding IPv4Entry 203.0.113.0/24 is installed and verified " ++
      "through telemetry and traffic."

end Case

end RouteProgramming
